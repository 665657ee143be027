import TagRetention.Json.Record
import TagRetention.Proofs.Text.Numeral

/-!
Where the values of a decoded record come from: each one was read by the decoder of its field, or it
stands for a field that was not there.
-/

namespace TagRetention.Json.Decode

variable {α β : Type} {ts : List Type} {fs : Fields ts} {f : Field α} {a : α} {n : Node}

theorem of_map_eq_ok {ε : Type} {x : Except ε α} {g : α → β} {b : β} (h : x.map g = .ok b) :
    ∃ a, x = .ok a ∧ g a = b := by
  cases x with
  | error _ => cases h
  | ok a =>
    cases h
    exact ⟨a, rfl, rfl⟩

inductive Field.Yields (f : Field α) (a : α) : Prop where
  | read {n : Node} (h : f.decode n = .ok a)
  | absent (h : f.absent = some a)
  | short (h : f.short = some a)

namespace Fields

inductive Yield : {ts : List Type} → Fields ts → Tuple ts → Prop where
  | nil : Yield .nil ()
  | cons {α : Type} {ts : List Type} {f : Field α} {r : Fields ts} {a : α} {t : Tuple ts}
    (ha : f.Yields a) (ht : Yield r t) : Yield (.cons f r) (a, t)

/-- What is in the slots so far was read. -/
inductive Filled : {ts : List Type} → Fields ts → Slots ts → Prop where
  | nil : Filled .nil ()
  | cons {α : Type} {ts : List Type} {f : Field α} {r : Fields ts} {a : Option α} {s : Slots ts}
    (ha : ∀ b, a = some b → ∃ n, f.decode n = .ok b) (hs : Filled r s) : Filled (.cons f r) (a, s)

theorem filled_noSlots : {ts : List Type} → (fs : Fields ts) → fs.Filled (noSlots ts)
  | _, .nil => .nil
  | _, .cons _ r => .cons nofun (filled_noSlots r)

theorem Filled.fill {s s' : Slots ts} (h : fs.Filled s) {k : String}
    (hfill : fs.fill k n s = .ok s') : fs.Filled s' := by
  induction h with
  | nil => exact .nil
  | @cons _ _ f r a s ha hs ih =>
    simp only [Fields.fill] at hfill
    split at hfill
    · cases a with
      | some _ => cases hfill
      | none =>
        obtain ⟨b, hb, rfl⟩ := of_map_eq_ok hfill
        refine .cons ?_ hs
        rintro _ ⟨⟩
        exact ⟨n, hb⟩
    · obtain ⟨s₁, hs₁, rfl⟩ := of_map_eq_ok hfill
      exact .cons ha (ih hs₁)

theorem Filled.fillAll {s s' : Slots ts} {fields : List (Option String × Node)} (h : fs.Filled s)
    (hfill : fs.fillAll s fields = .ok s') : fs.Filled s' := by
  induction fields generalizing s with
  | nil =>
    cases hfill
    exact h
  | cons e fields ih =>
    obtain ⟨k, n⟩ := e
    cases k with
    | none => cases hfill
    | some k =>
      rw [Fields.fillAll] at hfill
      split at hfill
      · cases hfill
      · rename_i s₁ hs₁
        exact ih (h.fill hs₁) hfill

theorem Filled.complete {s : Slots ts} {t : Tuple ts} (h : fs.Filled s)
    (ht : fs.complete s = .ok t) : fs.Yield t := by
  induction h with
  | nil => exact .nil
  | @cons _ _ f r a s ha hs ih =>
    rw [Fields.complete] at ht
    split at ht
    · cases ht
    · rename_i b hb
      obtain ⟨u, hu, rfl⟩ := of_map_eq_ok ht
      refine .cons ?_ (ih hu)
      cases a with
      | none => exact .absent hb
      | some _ =>
        cases hb
        obtain ⟨n, hn⟩ := ha b rfl
        exact .read hn

theorem yield_ofItems {closed : Bool} : {ts : List Type} → {fs : Fields ts} →
    {items : List Node} → {t : Tuple ts} → fs.ofItems closed items = .ok t → fs.Yield t
  | _, .nil, _, (), _ => .nil
  | _, .cons f r, n :: items, t, h => by
    rw [Fields.ofItems] at h
    split at h
    · cases h
    · rename_i a ha
      obtain ⟨u, hu, rfl⟩ := of_map_eq_ok h
      exact .cons (.read ha) (yield_ofItems hu)
  | _, .cons f r, [], t, h => by
    rw [Fields.ofItems] at h
    split at h
    · cases h
    · split at h
      · cases h
      · rename_i a ha
        obtain ⟨u, hu, rfl⟩ := of_map_eq_ok h
        exact .cons (.short ha) (yield_ofItems hu)

theorem yield_decode {t : Tuple ts} (h : fs.decode n = .ok t) : fs.Yield t := by
  cases n with
  | obj fields closed =>
    rw [Fields.decode] at h
    split at h
    · cases h
    · rename_i s hs
      split at h
      · exact ((filled_noSlots fs).fillAll hs).complete h
      · cases h
  | arr items closed => exact yield_ofItems h
  | broken | unreadable | null | bool | num | str => cases h

theorem yield_record {build : Tuple ts → α} {a : α} (h : record fs build n = .ok a) :
    ∃ t, fs.Yield t ∧ build t = a := by
  obtain ⟨t, ht, hbuild⟩ := of_map_eq_ok h
  exact ⟨t, yield_decode ht, hbuild⟩

end Fields

theorem range_of_integer {lo hi i : Int} (h : integer lo hi n = .ok i) : lo ≤ i ∧ i ≤ hi := by
  unfold integer at h
  split at h
  · split at h
    · rename_i hrange
      cases h
      exact hrange
    · cases h
  · cases h

theorem fits_of_int64 {i : Int} (h : int64 n = .ok i) : Fits 63 i :=
  ⟨(range_of_integer h).1, Int.lt_of_le_sub_one (range_of_integer h).2⟩

theorem fits_of_int32 {i : Int} (h : int32 n = .ok i) : Fits 31 i :=
  ⟨(range_of_integer h).1, Int.lt_of_le_sub_one (range_of_integer h).2⟩

theorem of_nullable {d : Decoder α} {o : Option α} (h : nullable d n = .ok o) :
    ∀ a, o = some a → d n = .ok a := by
  rintro a rfl
  unfold nullable at h
  split at h
  · cases h
  · obtain ⟨b, hb, ⟨⟩⟩ := of_map_eq_ok h
    exact hb

end TagRetention.Json.Decode
