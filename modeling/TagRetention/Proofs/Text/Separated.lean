import TagRetention.Text.Separated

/-!
The pieces of a text cut at separators: what they hold together, and how they change when some of
the other characters are taken out of the text.
-/

namespace TagRetention.Text

variable {p q : Char → Bool} {s : List Char}

theorem splitBy_cons (p : Char → Bool) (c : Char) (s : List Char) :
    splitBy p (c :: s) =
      if p c then [] :: splitBy p s else (splitBy p s).modifyHead (c :: ·) := by
  rw [splitBy]
  split
  · rfl
  · cases hs : splitBy p s with
    | nil => exact absurd hs splitBy_ne_nil
    | cons w ws => rfl

theorem length_splitBy (p : Char → Bool) (s : List Char) :
    (splitBy p s).length = s.countP p + 1 := by
  induction s with
  | nil => rfl
  | cons c s ih =>
    rw [splitBy_cons, List.countP_cons]
    by_cases hc : p c = true
    · simp [hc, ih]
    · simp [hc, ih]

theorem flatten_splitBy (p : Char → Bool) (s : List Char) :
    (splitBy p s).flatten = s.filter (!p ·) := by
  induction s with
  | nil => rfl
  | cons c s ih =>
    rw [splitBy_cons]
    by_cases hc : p c = true
    · simp [hc, ih]
    · have hhead : ((splitBy p s).modifyHead (c :: ·)).flatten = c :: (splitBy p s).flatten := by
        cases hs : splitBy p s with
        | nil => exact absurd hs splitBy_ne_nil
        | cons w ws => rfl
      simp [hc, hhead, ih]

/-- Characters that do not separate may be taken out before the text is cut or after. -/
theorem map_filter_splitBy (h : ∀ c, p c = true → q c = true) (s : List Char) :
    (splitBy p s).map (List.filter q) = splitBy p (s.filter q) := by
  induction s with
  | nil => rfl
  | cons c s ih =>
    rw [splitBy_cons]
    by_cases hc : p c = true
    · simp [hc, h c hc, splitBy_cons, ih]
    · have hpieces : ((splitBy p s).modifyHead (c :: ·)).map (List.filter q) =
          if q c then ((splitBy p s).map (List.filter q)).modifyHead (c :: ·)
          else (splitBy p s).map (List.filter q) := by
        cases hs : splitBy p s with
        | nil => exact absurd hs splitBy_ne_nil
        | cons w ws => by_cases hq : q c = true <;> simp [hq]
      rw [if_neg hc, hpieces, ih]
      by_cases hq : q c = true
      · simp [hq, hc, splitBy_cons]
      · simp [hq]

theorem splitChars_of_not_mem {sep : Char} (h : sep ∉ s) : splitChars sep s = [s] := by
  have hcount : s.countP (· == sep) = 0 := by
    rw [List.countP_eq_zero]
    intro c hc
    rw [beq_iff_eq]
    rintro rfl
    exact h hc
  have hlength : (splitChars sep s).length = 1 := by
    rw [splitChars, length_splitBy, hcount]
  obtain ⟨w, hw⟩ := List.length_eq_one_iff.mp hlength
  have hjoin : joinChars [sep] (splitChars sep s) = s := joinChars_splitChars sep
  rw [hw] at hjoin
  rw [hw, ← hjoin]
  rfl

theorem splitChars_append {sep : Char} (h : sep ∉ s) (r : List Char) :
    splitChars sep (s ++ sep :: r) = s :: splitChars sep r := by
  induction s with
  | nil => simp [splitChars, splitBy_cons]
  | cons c s ih =>
    rw [List.mem_cons, not_or] at h
    have hc : (c == sep) = false := by
      rw [beq_eq_false_iff_ne]
      exact Ne.symm h.1
    have ih := ih h.2
    rw [splitChars] at ih ⊢
    rw [List.cons_append, splitBy_cons, hc, ih]
    rfl

theorem splitChars_joinChars {sep : Char} {ws : List (List Char)} (hne : ws ≠ [])
    (h : ∀ w ∈ ws, sep ∉ w) : splitChars sep (joinChars [sep] ws) = ws := by
  induction ws with
  | nil => exact absurd rfl hne
  | cons w ws ih =>
    rw [List.forall_mem_cons] at h
    cases ws with
    | nil => exact splitChars_of_not_mem h.1
    | cons v ws =>
      have hjoin : joinChars [sep] (w :: v :: ws) = w ++ sep :: joinChars [sep] (v :: ws) := by
        simp [joinChars]
      rw [hjoin, splitChars_append h.1, ih (List.cons_ne_nil v ws) h.2]

/-- The pieces of a text are the only way to put it together from pieces without the separator. -/
theorem splitChars_eq_iff {sep : Char} {ws : List (List Char)} :
    splitChars sep s = ws ↔ ws ≠ [] ∧ (∀ w ∈ ws, sep ∉ w) ∧ joinChars [sep] ws = s := by
  constructor
  · rintro rfl
    refine ⟨splitBy_ne_nil, fun w hw hsep => ?_, joinChars_splitChars sep⟩
    simpa using not_of_mem_splitBy hw hsep
  · rintro ⟨hne, h, rfl⟩
    exact splitChars_joinChars hne h

theorem takeWhile_of_not_mem {c : Char} (h : c ∉ s) : s.takeWhile (· != c) = s := by
  induction s with
  | nil => rfl
  | cons d s ih =>
    rw [List.mem_cons, not_or] at h
    rw [List.takeWhile_cons, if_pos (by simpa using Ne.symm h.1), ih h.2]

theorem takeWhile_append {c : Char} (h : c ∉ s) (r : List Char) :
    (s ++ c :: r).takeWhile (· != c) = s := by
  induction s with
  | nil => simp
  | cons d s ih =>
    rw [List.mem_cons, not_or] at h
    rw [List.cons_append, List.takeWhile_cons, if_pos (by simpa using Ne.symm h.1), ih h.2]

theorem filter_map_ofList (vs : List (List Char)) :
    (vs.map String.ofList).filter (· ≠ "") = (vs.filter (· ≠ [])).map String.ofList := by
  have hne (v : List Char) : String.ofList v ≠ "" ↔ v ≠ [] := by
    rw [Ne, ← String.toList_inj, String.toList_ofList]
    rfl
  rw [List.filter_map]
  congr 1
  exact List.filter_congr fun v _ => by simp only [Function.comp_apply, hne]

end TagRetention.Text
