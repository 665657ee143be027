/-!
Finite maps as lists of key and value in increasing key order. `get?_insert`, `get?_erase` and
`sorted_insert` say what the operations do; every operation keeps the order.
-/

set_option linter.unusedSectionVars false

namespace TagRetention

abbrev Table (κ α : Type) := List (κ × α)

namespace Table

variable {κ α β : Type} [Ord κ] [DecidableEq κ]

def Sorted (t : Table κ α) : Prop :=
  t.Pairwise fun a b => compare a.1 b.1 = .lt

def get? (t : Table κ α) (k : κ) : Option α :=
  match t with
  | [] => none
  | (k', v) :: r => if k = k' then some v else get? r k

def contains (t : Table κ α) (k : κ) : Bool :=
  (get? t k).isSome

def insert (t : Table κ α) (k : κ) (v : α) : Table κ α :=
  match t with
  | [] => [(k, v)]
  | (k', v') :: r =>
    match compare k k' with
    | .lt => (k, v) :: (k', v') :: r
    | .eq => (k, v) :: r
    | .gt => (k', v') :: insert r k v

def erase (t : Table κ α) (k : κ) : Table κ α :=
  t.filter fun e => e.1 ≠ k

def values (t : Table κ α) : List α :=
  t.map (·.2)

def keys (t : Table κ α) : List κ :=
  t.map (·.1)

def mapValues (f : α → β) (t : Table κ α) : Table κ β :=
  t.map fun e => (e.1, f e.2)

/-- Keeps the entries whose value passes the test. -/
def retain (p : α → Bool) (t : Table κ α) : Table κ α :=
  t.filter fun e => p e.2

variable [Std.TransOrd κ] [Std.LawfulEqOrd κ] {t : Table κ α} {k k' : κ} {v : α}

theorem get?_cons (e : κ × α) : get? (e :: t) k = if k = e.1 then some e.2 else get? t k := rfl

theorem mem_of_get? (h : get? t k = some v) : (k, v) ∈ t := by
  induction t with
  | nil => simp [get?] at h
  | cons e r ih =>
    rw [get?_cons] at h
    split at h
    · rename_i hk
      obtain rfl := Option.some.inj h
      simp [hk]
    · exact List.mem_cons_of_mem _ (ih h)

theorem sorted_nil : Sorted ([] : Table κ α) := List.Pairwise.nil

theorem get?_of_mem (hs : t.Sorted) (h : (k, v) ∈ t) : get? t k = some v := by
  induction t with
  | nil => simp at h
  | cons e r ih =>
    obtain ⟨hlt, hs⟩ := List.pairwise_cons.1 hs
    rw [get?_cons]
    rcases List.mem_cons.1 h with rfl | h
    · simp
    · split
      · rename_i hk
        have := hlt _ h
        rw [← hk, Std.ReflOrd.compare_self] at this
        simp at this
      · exact ih hs h

theorem get?_insert : get? (insert t k v) k' = if k' = k then some v else get? t k' := by
  induction t with
  | nil => simp [insert, get?_cons]
  | cons e r ih =>
    simp only [insert]
    split
    · rw [get?_cons]
    · rename_i h
      have hk := Std.LawfulEqOrd.compare_eq_iff_eq.1 h
      by_cases hk' : k' = k <;> simp_all [get?_cons]
    · rename_i h
      have hk : e.1 ≠ k := by
        rintro rfl
        simp [Std.ReflOrd.compare_self] at h
      rw [get?_cons, get?_cons, ih]
      by_cases h1 : k' = e.1
      · simp_all
      · simp [h1]

theorem isSome_get?_insert :
    (get? (insert t k v) k').isSome = (decide (k' = k) || (get? t k').isSome) := by
  rw [get?_insert]
  by_cases h : k' = k <;> simp [h]

theorem mem_insert {e : κ × α} (h : e ∈ insert t k v) : e = (k, v) ∨ e ∈ t := by
  induction t with
  | nil => simpa [insert] using h
  | cons d r ih =>
    simp only [insert] at h
    split at h
    · simpa using h
    · rcases List.mem_cons.1 h with h | h
      · exact .inl h
      · exact .inr (List.mem_cons_of_mem _ h)
    · rcases List.mem_cons.1 h with h | h
      · exact .inr (by simp [h])
      · exact (ih h).imp_right (List.mem_cons_of_mem _)

theorem sorted_insert (h : t.Sorted) : (insert t k v).Sorted := by
  induction t with
  | nil => simp [insert, Sorted]
  | cons e r ih =>
    obtain ⟨hlt, hs⟩ := List.pairwise_cons.1 h
    simp only [insert]
    split
    · rename_i hk
      refine List.pairwise_cons.2 ⟨fun d hd => ?_, h⟩
      rcases List.mem_cons.1 hd with rfl | hd
      · exact hk
      · exact Std.TransCmp.lt_trans hk (hlt _ hd)
    · rename_i hk
      rw [Std.LawfulEqOrd.compare_eq_iff_eq.1 hk]
      exact List.pairwise_cons.2 ⟨hlt, hs⟩
    · rename_i hk
      refine List.pairwise_cons.2 ⟨fun d hd => ?_, ih hs⟩
      rcases mem_insert hd with rfl | hd
      · exact Std.OrientedCmp.lt_of_gt hk
      · exact hlt _ hd

theorem get?_eq_some_iff (hs : t.Sorted) : get? t k = some v ↔ (k, v) ∈ t :=
  ⟨mem_of_get?, get?_of_mem hs⟩

theorem mem_values_iff (hs : t.Sorted) : v ∈ values t ↔ ∃ k, get? t k = some v := by
  constructor
  · intro h
    obtain ⟨e, he, rfl⟩ := List.mem_map.1 h
    exact ⟨e.1, get?_of_mem hs he⟩
  · rintro ⟨k, h⟩
    exact List.mem_map.2 ⟨(k, v), mem_of_get? h, rfl⟩

theorem get?_erase : get? (erase t k) k' = if k' = k then none else get? t k' := by
  induction t with
  | nil => simp [erase, get?]
  | cons e r ih =>
    rw [get?_cons]
    by_cases he : e.1 = k
    · rw [erase, List.filter_cons_of_neg (by simpa using he), ← erase, ih]
      by_cases hk : k' = k
      · rw [if_pos hk, if_pos hk]
      · rw [if_neg hk, if_neg hk, if_neg (fun h => hk (h.trans he))]
    · rw [erase, List.filter_cons_of_pos (by simpa using he), ← erase, get?_cons, ih]
      by_cases hk : k' = k
      · rw [if_pos hk, if_neg (fun h => he (h.symm.trans hk)), if_pos hk]
      · rw [if_neg hk, if_neg hk]

theorem get?_of_erase (h : get? (erase t k) k' = some v) : get? t k' = some v := by
  rw [get?_erase] at h
  split at h
  · cases h
  · exact h

theorem sorted_erase (h : t.Sorted) : (erase t k).Sorted :=
  List.Pairwise.filter _ h

theorem sorted_retain (p : α → Bool) (h : t.Sorted) : (retain p t).Sorted :=
  List.Pairwise.filter _ h

theorem get?_retain (p : α → Bool) (hs : t.Sorted) :
    get? (retain p t) k = (get? t k).filter p := by
  apply Option.ext
  intro v
  rw [get?_eq_some_iff (sorted_retain p hs), Option.filter_eq_some_iff, get?_eq_some_iff hs, retain,
    List.mem_filter]

theorem sorted_mapValues (f : α → β) (h : t.Sorted) : (mapValues f t).Sorted :=
  List.Pairwise.map _ (fun _ _ => id) h

theorem get?_mapValues (f : α → β) : get? (mapValues f t) k = (get? t k).map f := by
  induction t with
  | nil => rfl
  | cons e r ih =>
    rw [mapValues, List.map_cons, get?_cons, get?_cons]
    split
    · rfl
    · exact ih

theorem values_cons (e : κ × α) : values (e :: t) = e.2 :: values t := rfl

theorem values_mapValues (f : α → β) : values (mapValues f t) = (values t).map f := by
  simp [values, mapValues]

theorem values_retain (p : α → Bool) : values (retain p t) = (values t).filter p := by
  rw [values, values, retain, List.filter_map]
  rfl

/-- Values that fail the test may come, or take the place of each other, unnoticed. -/
theorem filter_values_insert {p : α → Bool} (hv : p v = false)
    (hold : ∀ w, get? t k = some w → p w = false) :
    (values (insert t k v)).filter p = (values t).filter p := by
  induction t with
  | nil => simp [insert, values, hv]
  | cons e r ih =>
    simp only [insert]
    split
    · simp [values_cons, hv]
    · rename_i h
      have hk := Std.LawfulEqOrd.compare_eq_iff_eq.1 h
      have he : p e.2 = false := hold e.2 (by rw [get?_cons, if_pos hk])
      simp [values_cons, hv, he]
    · rename_i h
      have hk : e.1 ≠ k := by
        rintro rfl
        simp [Std.ReflOrd.compare_self] at h
      have hrest := ih fun w hw => hold w (by rwa [get?_cons, if_neg hk.symm])
      simp [values_cons, List.filter_cons, hrest]

theorem insert_of_lt (h : ∀ e ∈ t, compare e.1 k = .lt) : insert t k v = t ++ [(k, v)] := by
  induction t with
  | nil => rfl
  | cons e r ih =>
    have hgt : compare k e.1 = .gt := Std.OrientedCmp.gt_of_lt (h e (by simp))
    simp only [insert, hgt, ih fun d hd => h d (by simp [hd]), List.cons_append]

end Table

end TagRetention
