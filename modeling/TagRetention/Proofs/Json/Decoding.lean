import Mathlib.Data.List.Nodup
import TagRetention.Json.Record
import TagRetention.Proofs.Text.Numeral

/-!
Decoders on documents that were encoded. A record reads back from an object with its fields, a list
from its items, and a free value from its own document.
-/

namespace TagRetention.Json

open Decode Node

namespace Decode

variable {α β : Type} {ts : List Type} {fs : Fields ts} {l : List (String × Json)} {t : Tuple ts}

/-- The fields of an object hold the values: each is there, or left out and then the default. -/
inductive Written : {ts : List Type} → Fields ts → List (String × Json) → Tuple ts → Prop where
  | nil : Written .nil [] ()
  | field {α : Type} {ts : List Type} {f : Field α} {r : Fields ts} {l : List (String × Json)}
    {t : Tuple ts} {a : α} {j : Json} (ha : f.decode (ofJson j) = .ok a) (hr : Written r l t) :
    Written (.cons f r) ((f.name, j) :: l) (a, t)
  | absent {α : Type} {ts : List Type} {f : Field α} {r : Fields ts} {l : List (String × Json)}
    {t : Tuple ts} {a : α} (ha : f.absent = some a) (hr : Written r l t) :
    Written (.cons f r) l (a, t)

theorem Written.mem_names (h : Written fs l t) {e : String × Json} (he : e ∈ l) :
    e.1 ∈ fs.names := by
  induction h with
  | nil => cases he
  | field _ _ ih =>
    rcases List.mem_cons.mp he with rfl | he
    · exact List.mem_cons_self
    · exact List.mem_cons_of_mem _ (ih he)
  | absent _ _ ih => exact List.mem_cons_of_mem _ (ih he)

theorem fillAll_of_other {f : Field α} (hf : ∀ e ∈ l, e.1 ≠ f.name) (a : Option α) (s : Slots ts) :
    (Fields.cons f fs).fillAll (a, s) (ofFields l) =
      (fs.fillAll s (ofFields l)).map fun s => (a, s) := by
  induction l generalizing s with
  | nil => rfl
  | cons e l ih =>
    obtain ⟨k, j⟩ := e
    have hk : k ≠ f.name := hf (k, j) List.mem_cons_self
    have ih := fun s => ih (fun e he => hf e (List.mem_cons_of_mem _ he)) s
    simp only [ofFields, Fields.fillAll, Fields.fill, if_neg hk]
    cases fs.fill k (ofJson j) s with
    | error e => rfl
    | ok s' => exact ih s'

theorem Written.fillAll (h : Written fs l t) (hnames : fs.names.Nodup) :
    ∃ s, fs.fillAll (noSlots ts) (ofFields l) = .ok s ∧ fs.complete s = .ok t := by
  induction h with
  | nil => exact ⟨(), rfl, rfl⟩
  | @field _ _ f r l t a j ha hr ih =>
    rw [Fields.names, List.nodup_cons] at hnames
    obtain ⟨s, hfill, hcomplete⟩ := ih hnames.2
    have hother : ∀ e ∈ l, e.1 ≠ f.name := fun e he heq => hnames.1 (heq ▸ hr.mem_names he)
    refine ⟨(some a, s), ?_, ?_⟩
    · rw [ofFields, Fields.fillAll, noSlots, Fields.fill, if_pos rfl, ha]
      simp only [Except.map, fillAll_of_other hother, hfill]
    · rw [Fields.complete, hcomplete]
      rfl
  | @absent _ _ f r l t a ha hr ih =>
    rw [Fields.names, List.nodup_cons] at hnames
    obtain ⟨s, hfill, hcomplete⟩ := ih hnames.2
    have hother : ∀ e ∈ l, e.1 ≠ f.name := fun e he heq => hnames.1 (heq ▸ hr.mem_names he)
    refine ⟨(none, s), ?_, ?_⟩
    · rw [noSlots, fillAll_of_other hother, hfill]
      rfl
    · rw [Fields.complete, ha, hcomplete]
      rfl

/-- A record reads back from an object that holds its values. -/
theorem record_ofJson {build : Tuple ts → α} {a : α} (hnames : fs.names.Nodup)
    (h : Written fs l t) (ha : build t = a) : record fs build (ofJson (.obj l)) = .ok a := by
  obtain ⟨s, hfill, hcomplete⟩ := h.fillAll hnames
  rw [ofJson, record, Fields.decode, hfill]
  simp only [if_true, hcomplete, Except.map, ha]

theorem int64_ofJson {n : Int} (h : Fits 63 n) : int64 (ofJson (.int n)) = .ok n := by
  have hle : -Int.pow 2 63 ≤ n ∧ n ≤ Int.pow 2 63 - 1 := ⟨h.1, Int.le_sub_one_of_lt h.2⟩
  exact if_pos hle

theorem int32_ofJson {n : Int} (h : Fits 31 n) : int32 (ofJson (.int n)) = .ok n := by
  have hle : -Int.pow 2 31 ≤ n ∧ n ≤ Int.pow 2 31 - 1 := ⟨h.1, Int.le_sub_one_of_lt h.2⟩
  exact if_pos hle

theorem list_ofJson {d : Decoder α} {f : α → Json} {as : List α}
    (h : ∀ a ∈ as, d (ofJson (f a)) = .ok a) : list d (ofJson (.ofList f as)) = .ok as := by
  have heach : each d (ofItems (as.map f)) = .ok as := by
    induction as with
    | nil => rfl
    | cons a as ih =>
      rw [List.map_cons, ofItems, each, h a List.mem_cons_self,
        ih fun b hb => h b (List.mem_cons_of_mem a hb)]
      rfl
  rw [Json.ofList, ofJson, list, heach]
  rfl

theorem pair_ofJson {d : Decoder α} {e : Decoder β} {a : α} {b : β} {i j : Json}
    (ha : d (ofJson i) = .ok a) (hb : e (ofJson j) = .ok b) :
    pair d e (ofJson (.arr [i, j])) = .ok (a, b) := by
  simp [ofJson, ofItems, pair, Fields.ofItems, required, ha, hb, Except.map]

theorem single_ofJson {d : Decoder α} {a : α} {j : Json} (ha : d (ofJson j) = .ok a) :
    single d (ofJson (.arr [j])) = .ok a := by
  simp [ofJson, ofItems, single, Fields.ofItems, required, ha, Except.map]

end Decode

namespace Node

mutual

theorem value_ofJson : (j : Json) → j.Canonical → ∃ v, value (ofJson j) = .ok v ∧ v.json = j
  | .null, _ => ⟨.null, rfl, rfl⟩
  | .bool b, _ => ⟨.bool b, rfl, rfl⟩
  | .num n, _ => ⟨.num n, rfl, rfl⟩
  | .str s, _ => ⟨.str s, rfl, rfl⟩
  | .arr items, h => by
    rw [Canonical] at h
    obtain ⟨vs, hvs, hitems⟩ := values_ofItems items h
    refine ⟨.array vs, ?_, congrArg Json.arr hitems⟩
    rw [ofJson, value, hvs]
    rfl
  | .obj fields, h => by
    rw [Canonical] at h
    obtain ⟨m, hm, hfields⟩ := members_ofFields fields .empty h.2 h.1
    refine ⟨.object m, ?_, congrArg Json.obj hfields⟩
    rw [ofJson, value, hm]
    rfl

theorem values_ofItems : (items : List Json) → CanonicalItems items →
    ∃ vs, values (ofItems items) = .ok vs ∧ vs.map (·.json) = items
  | [], _ => ⟨[], rfl, rfl⟩
  | a :: r, h => by
    obtain ⟨v, hv, ha⟩ := value_ofJson a h.1
    obtain ⟨vs, hvs, hr⟩ := values_ofItems r h.2
    refine ⟨v :: vs, ?_, ?_⟩
    · rw [ofItems, values, hv, hvs]
      rfl
    · rw [List.map_cons, ha, hr]

/-- The fields come in order, so each one goes to the end of the table. -/
theorem members_ofFields : (fields : List (String × Json)) → (m : Members) →
    CanonicalFields fields → Table.Sorted (m.entries.mapValues (·.json) ++ fields) →
    ∃ m', members m (ofFields fields) = .ok m' ∧
      m'.entries.mapValues (·.json) = m.entries.mapValues (·.json) ++ fields
  | [], m, _, _ => ⟨m, rfl, (List.append_nil _).symm⟩
  | (k, a) :: r, m, h, hs => by
    obtain ⟨v, hv, rfl⟩ := value_ofJson a h.1
    have hlast : ∀ e ∈ m.entries, compare e.1 k = .lt := by
      intro e he
      exact (List.pairwise_append.mp hs).2.2 (e.1, e.2.json)
        (List.mem_map_of_mem (f := fun e : String × Value => (e.1, e.2.json)) he) (k, v.json)
        List.mem_cons_self
    have hinsert : (m.insert k v).entries.mapValues (·.json) =
        m.entries.mapValues (·.json) ++ [(k, v.json)] := by
      have hentries : (m.insert k v).entries = m.entries ++ [(k, v)] := Table.insert_of_lt hlast
      rw [hentries, Table.mapValues, List.map_append]
      rfl
    obtain ⟨m', hm', hr⟩ := members_ofFields r (m.insert k v) h.2 (by
      rwa [hinsert, List.append_assoc, List.singleton_append])
    refine ⟨m', ?_, ?_⟩
    · rw [ofFields, members, hv]
      exact hm'
    · rw [hr, hinsert, List.append_assoc, List.singleton_append]

end

end Node

theorem Value.eq_of_json {v w : Value} (h : v.json = w.json) : v = w := by
  cases v
  cases w
  cases h
  rfl

namespace Decode

theorem members_ofJson (m : Members) :
    Decode.members (ofJson (Value.object m).json) = .ok m := by
  have hsorted : (m.entries.mapValues (·.json)).Sorted := Table.sorted_mapValues _ m.sorted
  obtain ⟨m', hm', hentries⟩ := Node.members_ofFields _ .empty
    (Value.canonicalFields_map m.entries) hsorted
  have hsame : m'.entries = m.entries := by
    apply List.map_injective_iff.mpr _ hentries
    intro e e' he
    obtain ⟨hkey, hvalue⟩ := Prod.mk.inj he
    exact Prod.ext hkey (Value.eq_of_json hvalue)
  have heq : m' = m := by
    cases m'
    cases m
    cases hsame
    rfl
  rw [Value.object, ofJson, Decode.members, hm', heq]
  rfl

theorem nullable_of_ne {d : Decoder α} {a : α} {n : Node} (hn : n ≠ .null) (h : d n = .ok a) :
    nullable d n = .ok (some a) := by
  rw [nullable, h]
  · rfl
  · exact hn

end Decode

end TagRetention.Json
