import Mathlib.Data.List.Forall2
import TagRetention.Json.Value

/-!
`same` is an equivalence of documents, and so of free values and of the contents of objects. A map
of values that keeps `same` keeps it for the contents.
-/

namespace TagRetention.Json

theorem Number.same_refl (n : Number) : n.same n = true := by
  cases n with
  | int a => simp [Number.same]
  | float x => exact Binary64.same_refl

theorem Number.same_comm (n m : Number) : n.same m = m.same n := by
  cases n with
  | int a => cases m <;> simp [Number.same, Bool.beq_comm]
  | float x =>
    cases m with
    | int b => rfl
    | float y => exact Binary64.same_comm

theorem Number.same_trans {n m l : Number} (h : n.same m = true) (h' : m.same l = true) :
    n.same l = true := by
  cases n <;> cases m <;> cases l <;> simp only [Number.same, Bool.false_eq_true, beq_iff_eq] at *
  · exact h.trans h'
  · exact Binary64.same_trans h h'

mutual

theorem same_refl : (a : Json) → a.same a = true
  | .null => rfl
  | .bool b => by simp [same]
  | .num n => by simpa [same] using n.same_refl
  | .str s => by simp [same]
  | .arr items => by simpa [same] using sameItems_refl items
  | .obj fields => by simpa [same] using sameFields_refl fields

theorem sameItems_refl : (l : List Json) → sameItems l l = true
  | [] => rfl
  | a :: r => by simp [sameItems, same_refl a, sameItems_refl r]

theorem sameFields_refl : (l : List (String × Json)) → sameFields l l = true
  | [] => rfl
  | (k, a) :: r => by simp [sameFields, same_refl a, sameFields_refl r]

end

mutual

theorem same_comm : (a b : Json) → a.same b = b.same a
  | .null, b => by cases b <;> rfl
  | .bool x, b => by cases b <;> simp [same, Bool.beq_comm]
  | .num n, b => by cases b <;> simp [same, Number.same_comm]
  | .str s, b => by cases b <;> simp [same, Bool.beq_comm]
  | .arr l, b => by
    cases b with
    | arr m => simpa [same] using sameItems_comm l m
    | _ => rfl
  | .obj l, b => by
    cases b with
    | obj m => simpa [same] using sameFields_comm l m
    | _ => rfl

theorem sameItems_comm : (l m : List Json) → sameItems l m = sameItems m l
  | [], m => by cases m <;> rfl
  | a :: r, m => by
    cases m with
    | nil => rfl
    | cons b s => simp [sameItems, same_comm a b, sameItems_comm r s]

theorem sameFields_comm : (l m : List (String × Json)) → sameFields l m = sameFields m l
  | [], m => by cases m <;> rfl
  | (k, a) :: r, m => by
    cases m with
    | nil => rfl
    | cons e s => simp [sameFields, same_comm a e.2, sameFields_comm r s, Bool.beq_comm (a := k)]

end

mutual

theorem same_trans : {a b c : Json} → a.same b = true → b.same c = true → a.same c = true
  | .null, b, c, h, h' => by cases b <;> cases c <;> simp_all [same]
  | .bool x, b, c, h, h' => by cases b <;> cases c <;> simp_all [same]
  | .num n, b, c, h, h' => by
    cases b <;> cases c <;> simp only [same, Bool.false_eq_true] at *
    exact Number.same_trans h h'
  | .str s, b, c, h, h' => by cases b <;> cases c <;> simp_all [same]
  | .arr l, b, c, h, h' => by
    cases b <;> cases c <;> simp only [same, Bool.false_eq_true] at *
    exact sameItems_trans h h'
  | .obj l, b, c, h, h' => by
    cases b <;> cases c <;> simp only [same, Bool.false_eq_true] at *
    exact sameFields_trans h h'

theorem sameItems_trans : {l m n : List Json} → sameItems l m = true → sameItems m n = true →
    sameItems l n = true
  | [], m, n, h, h' => by cases m <;> simp_all [sameItems]
  | a :: r, m, n, h, h' => by
    cases m <;> cases n <;> simp only [sameItems, Bool.and_eq_true, Bool.false_eq_true] at *
    exact ⟨same_trans h.1 h'.1, sameItems_trans h.2 h'.2⟩

theorem sameFields_trans : {l m n : List (String × Json)} → sameFields l m = true →
    sameFields m n = true → sameFields l n = true
  | [], m, n, h, h' => by cases m <;> simp_all [sameFields]
  | (k, a) :: r, m, n, h, h' => by
    cases m <;> cases n <;>
      simp only [sameFields, Bool.and_eq_true, Bool.false_eq_true, beq_iff_eq] at *
    exact ⟨⟨h.1.1.trans h'.1.1, same_trans h.1.2 h'.1.2⟩, sameFields_trans h.2 h'.2⟩

end

namespace Members

theorem same_refl (m : Members) : m.same m = true :=
  Json.same_refl _

theorem same_comm (m n : Members) : m.same n = n.same m :=
  Json.same_comm _ _

theorem same_trans {m n l : Members} (h : m.same n = true) (h' : n.same l = true) :
    m.same l = true :=
  Json.same_trans (b := (Value.object n).json) h h'

theorem same_iff (m n : Members) :
    m.same n = true ↔
      List.Forall₂ (fun e d => e.1 = d.1 ∧ e.2.same d.2 = true) m.entries n.entries := by
  change sameFields (m.entries.map fun e => (e.1, e.2.json)) _ = true ↔ _
  change sameFields _ (n.entries.map fun e => (e.1, e.2.json)) = true ↔ _
  generalize m.entries = t
  generalize n.entries = u
  induction t generalizing u with
  | nil => cases u <;> simp [sameFields]
  | cons e r ih => cases u <;> simp [sameFields, ih, Value.same]

theorem same_map {f : Value → Value}
    (hf : ∀ v w, v.same w = true → (f v).same (f w) = true) {m n : Members}
    (h : m.same n = true) : (m.map f).same (n.map f) = true := by
  rw [same_iff] at h ⊢
  simp only [map, Table.mapValues, List.forall₂_map_left_iff, List.forall₂_map_right_iff]
  exact h.imp fun _ _ he => ⟨he.1, hf _ _ he.2⟩

theorem map_map (f g : Value → Value) (m : Members) : (m.map f).map g = m.map (g ∘ f) := by
  simp [map, Table.mapValues]

end Members

end TagRetention.Json
