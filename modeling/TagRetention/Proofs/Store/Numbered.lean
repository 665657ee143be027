import TagRetention.Table

/-! Tables whose records carry the id that they are stored under, given out by a counter. -/

namespace TagRetention.Table

variable {α : Type} {t : Table Int α} {idOf : α → Option Int} {next k : Int} {v : α}

/-- A record is stored under its id, and the counter is past every id. -/
structure Numbered (t : Table Int α) (idOf : α → Option Int) (next : Int) : Prop where
  sorted : t.Sorted
  id_eq : ∀ k v, t.get? k = some v → idOf v = some k
  lt_next : ∀ k v, t.get? k = some v → k < next

namespace Numbered

theorem nil : Numbered [] idOf next := by
  refine ⟨sorted_nil, ?_, ?_⟩ <;> simp [get?]

theorem get?_next (h : t.Numbered idOf next) : t.get? next = none := by
  cases hv : t.get? next with
  | none => rfl
  | some v => exact absurd (h.lt_next next v hv) (Int.lt_irrefl next)

theorem insert_next (h : t.Numbered idOf next) (v : α) : t.insert next v = t ++ [(next, v)] := by
  apply insert_of_lt
  intro e he
  have hlt : e.1 < next := h.lt_next e.1 e.2 (get?_of_mem h.sorted he)
  exact Std.compare_eq_lt.mpr hlt

theorem add (h : t.Numbered idOf next) (hv : idOf v = some next) :
    (t.insert next v).Numbered idOf (next + 1) := by
  refine ⟨sorted_insert h.sorted, ?_, ?_⟩
  · intro k w hw
    rw [get?_insert] at hw
    split at hw
    · rename_i hk
      cases hw
      rw [hv, hk]
    · exact h.id_eq k w hw
  · intro k w hw
    rw [get?_insert] at hw
    split at hw
    · omega
    · have := h.lt_next k w hw
      omega

theorem replace (h : t.Numbered idOf next) {old : α} (hold : t.get? k = some old)
    (hv : idOf v = some k) : (t.insert k v).Numbered idOf next := by
  refine ⟨sorted_insert h.sorted, ?_, ?_⟩
  · intro l w hw
    rw [get?_insert] at hw
    split at hw
    · rename_i hl
      cases hw
      rw [hv, hl]
    · exact h.id_eq l w hw
  · intro l w hw
    rw [get?_insert] at hw
    split at hw
    · rename_i hl
      rw [hl]
      exact h.lt_next k old hold
    · exact h.lt_next l w hw

theorem of_get? (h : t.Numbered idOf next) {u : Table Int α} (hs : u.Sorted)
    (hu : ∀ k v, u.get? k = some v → t.get? k = some v) : u.Numbered idOf next :=
  ⟨hs, fun k v hv => h.id_eq k v (hu k v hv), fun k v hv => h.lt_next k v (hu k v hv)⟩

theorem erase (h : t.Numbered idOf next) (k : Int) : (t.erase k).Numbered idOf next := by
  apply h.of_get? (sorted_erase h.sorted)
  intro l v hv
  exact get?_of_erase hv

theorem retain (h : t.Numbered idOf next) (p : α → Bool) : (t.retain p).Numbered idOf next := by
  apply h.of_get? (sorted_retain p h.sorted)
  intro k v hv
  rw [get?_retain p h.sorted, Option.filter_eq_some_iff] at hv
  exact hv.1

theorem mapValues (h : t.Numbered idOf next) {f : α → α} (hf : ∀ v, idOf (f v) = idOf v) :
    (t.mapValues f).Numbered idOf next := by
  refine ⟨sorted_mapValues f h.sorted, ?_, ?_⟩
  · intro k w hw
    rw [get?_mapValues, Option.map_eq_some_iff] at hw
    obtain ⟨v, hv, rfl⟩ := hw
    rw [hf]
    exact h.id_eq k v hv
  · intro k w hw
    rw [get?_mapValues, Option.map_eq_some_iff] at hw
    obtain ⟨v, hv, rfl⟩ := hw
    exact h.lt_next k v hv

end Numbered

end TagRetention.Table
