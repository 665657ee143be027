import TagRetention.Proofs.Text.Separated
import TagRetention.Proofs.Text.Trim
import TagRetention.Selector.Pattern

/-!
Blanks in a pattern. Each value is trimmed after the pattern is taken apart, which gives what a
pattern without any blanks gives if no blank hides the braces and none is inside a value.
-/

namespace TagRetention.Pattern

open Text

/-- Whether braces stand around the whole text. -/
def isWrapped (s : List Char) : Bool :=
  match s with
  | '\x7b' :: r => r.getLast? == some '\x7d'
  | _ => false

/-- The values that are not empty once they are trimmed. -/
def trimmedChars (s : List Char) : List (List Char) :=
  ((decodeChars s).map trimChars).filter (· ≠ [])

variable {s : List Char}

theorem isWrapped_iff :
    isWrapped s = true ↔ ∃ inner, s = '\x7b' :: (inner ++ ['\x7d']) := by
  constructor
  · intro h
    unfold isWrapped at h
    split at h
    · rename_i r
      obtain ⟨inner, rfl⟩ := List.getLast?_eq_some_iff.1 (beq_iff_eq.1 h)
      exact ⟨inner, rfl⟩
    · cases h
  · rintro ⟨inner, rfl⟩
    simp [isWrapped]

theorem unwrapChars_wrapped (inner : List Char) :
    unwrapChars ('\x7b' :: (inner ++ ['\x7d'])) = inner := by
  simp [unwrapChars]

theorem unwrapChars_of_not_isWrapped (h : isWrapped s = false) : unwrapChars s = s := by
  unfold unwrapChars
  split
  · rename_i r
    rw [if_neg]
    simpa [isWrapped] using h
  · rfl

theorem squeezeChars_wrapped (inner : List Char) :
    squeezeChars ('\x7b' :: (inner ++ ['\x7d'])) = '\x7b' :: (squeezeChars inner ++ ['\x7d']) := by
  have hopen : isBlank '\x7b' = false := by decide
  have hclose : isBlank '\x7d' = false := by decide
  simp [squeezeChars, hopen, hclose]

theorem isWrapped_squeezeChars (h : isWrapped s = true) : isWrapped (squeezeChars s) = true := by
  obtain ⟨inner, rfl⟩ := isWrapped_iff.1 h
  exact isWrapped_iff.2 ⟨squeezeChars inner, squeezeChars_wrapped inner⟩

theorem unwrapChars_squeezeChars (h : isWrapped (squeezeChars s) = isWrapped s) :
    unwrapChars (squeezeChars s) = squeezeChars (unwrapChars s) := by
  cases hs : isWrapped s with
  | true =>
    obtain ⟨inner, rfl⟩ := isWrapped_iff.1 hs
    rw [squeezeChars_wrapped, unwrapChars_wrapped, unwrapChars_wrapped]
  | false =>
    rw [hs] at h
    rw [unwrapChars_of_not_isWrapped h, unwrapChars_of_not_isWrapped hs]

theorem decodeChars_squeezeChars (h : isWrapped (squeezeChars s) = isWrapped s) :
    decodeChars (squeezeChars s) = (decodeChars s).map squeezeChars := by
  have hcomma : ∀ c : Char, (c == ',') = true → (!isBlank c) = true := by
    intro c hc
    rw [beq_iff_eq.1 hc]
    decide
  rw [decodeChars, unwrapChars_squeezeChars h]
  exact (map_filter_splitBy hcomma _).symm

/-- Trimming values one by one is the same as squeezing them if there is no blank left in them. -/
theorem filter_map_squeezeChars_eq_iff (vs : List (List Char)) :
    (vs.map squeezeChars).filter (· ≠ []) = (vs.map trimChars).filter (· ≠ []) ↔
      ∀ v ∈ (vs.map trimChars).filter (· ≠ []), ∀ c ∈ v, isBlank c = false := by
  induction vs with
  | nil => simp
  | cons v vs ih =>
    by_cases hv : trimChars v = []
    · have hsqueeze := trimChars_eq_nil_iff.1 hv
      simpa [hv, hsqueeze] using ih
    · have hsqueeze := mt trimChars_eq_nil_iff.2 hv
      have hhead : squeezeChars v = trimChars v ↔ ∀ c ∈ trimChars v, isBlank c = false :=
        squeezeChars_eq_trimChars_iff
      rw [List.map_cons, List.map_cons, List.filter_cons_of_pos (by simpa using hsqueeze),
        List.filter_cons_of_pos (by simpa using hv), List.cons.injEq, List.forall_mem_cons, hhead,
        ih]

theorem trimmedChars_squeezeChars (h : isWrapped (squeezeChars s) = isWrapped s) :
    trimmedChars (squeezeChars s) = ((decodeChars s).map squeezeChars).filter (· ≠ []) := by
  have hvalues : ((decodeChars s).map squeezeChars).map trimChars =
      (decodeChars s).map squeezeChars := by
    rw [List.map_map]
    exact List.map_congr_left fun v _ => trimChars_squeezeChars v
  rw [trimmedChars, decodeChars_squeezeChars h, hvalues]

/-- All that the values have in them. -/
theorem squeezeChars_flatten_trimmedChars (s : List Char) :
    squeezeChars (trimmedChars s).flatten = (squeezeChars (unwrapChars s)).filter (· != ',') := by
  have hvalues : ((decodeChars s).map trimChars).map squeezeChars =
      (decodeChars s).map squeezeChars := by
    rw [List.map_map]
    exact List.map_congr_left fun v _ => squeezeChars_trimChars v
  have hflatten : ((decodeChars s).map squeezeChars).flatten =
      squeezeChars ((unwrapChars s).filter (· != ',')) := by
    have hpieces : (decodeChars s).flatten = (unwrapChars s).filter (· != ',') :=
      flatten_splitBy (· == ',') (unwrapChars s)
    rw [← hpieces, squeezeChars, List.filter_flatten]
    rfl
  calc squeezeChars (trimmedChars s).flatten
      = (((decodeChars s).map trimChars).map squeezeChars).flatten := by
        rw [trimmedChars, List.flatten_filter_ne_nil, squeezeChars, List.filter_flatten]
        rfl
    _ = squeezeChars ((unwrapChars s).filter (· != ',')) := by rw [hvalues, hflatten]
    _ = (squeezeChars (unwrapChars s)).filter (· != ',') := by
        rw [squeezeChars, squeezeChars, List.filter_filter, List.filter_filter]
        exact List.filter_congr fun c _ => Bool.and_comm _ _

/-- Braces that show only without the blanks count as characters of the values before. -/
theorem trimmedChars_squeezeChars_ne (h : isWrapped (squeezeChars s) ≠ isWrapped s) :
    trimmedChars (squeezeChars s) ≠ trimmedChars s := by
  have hs : isWrapped s = false := by
    by_contra hs
    rw [Bool.not_eq_false] at hs
    exact h ((isWrapped_squeezeChars hs).trans hs.symm)
  have hsqueeze : isWrapped (squeezeChars s) = true := by
    rw [hs] at h
    simpa using h
  intro heq
  obtain ⟨inner, hinner⟩ := isWrapped_iff.1 hsqueeze
  have hflatten := congrArg (fun vs => (squeezeChars vs.flatten).length) heq
  have hchars : squeezeChars inner = inner := by
    have hidem := unwrapChars_squeezeChars (s := squeezeChars s) (by rw [squeezeChars_idem])
    rw [squeezeChars_idem, hinner, unwrapChars_wrapped] at hidem
    exact hidem.symm
  simp only [squeezeChars_flatten_trimmedChars] at hflatten
  rw [unwrapChars_of_not_isWrapped hs, hinner, unwrapChars_wrapped, hchars] at hflatten
  simp at hflatten
  omega

theorem trimmedChars_squeezeChars_eq_iff (s : List Char) :
    trimmedChars (squeezeChars s) = trimmedChars s ↔
      isWrapped (squeezeChars s) = isWrapped s ∧
        ∀ v ∈ trimmedChars s, ∀ c ∈ v, isBlank c = false := by
  by_cases h : isWrapped (squeezeChars s) = isWrapped s
  · rw [trimmedChars_squeezeChars h]
    simp only [h, true_and]
    exact filter_map_squeezeChars_eq_iff _
  · simp only [h, false_and, iff_false]
    exact trimmedChars_squeezeChars_ne h

end TagRetention.Pattern
