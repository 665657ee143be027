import Mathlib.Data.List.DropRight
import TagRetention.Text.Blank

/-!
Trimming and squeezing a text once is enough. The two differ by the blanks that stand between other
characters.
-/

namespace TagRetention.Text

theorem trimChars_eq (s : List Char) :
    trimChars s = (s.dropWhile isBlank).rdropWhile isBlank := rfl

theorem trimChars_idem (s : List Char) : trimChars (trimChars s) = trimChars s := by
  rw [trimChars_eq (trimChars s)]
  -- what is left starts as the text without its leading blanks does
  have hstart : (trimChars s).dropWhile isBlank = trimChars s := by
    rw [List.dropWhile_eq_self_iff]
    intro hl
    have hp : trimChars s <+: s.dropWhile isBlank := List.rdropWhile_prefix _ _
    rw [hp.getElem]
    exact List.dropWhile_get_zero_not isBlank s (hl.trans_le hp.length_le)
  rw [hstart, trimChars_eq, List.rdropWhile_idempotent]

theorem trim_idem (s : String) : trim (trim s) = trim s := by
  simp [trim, trimChars_idem]

theorem squeeze_idem (s : String) : squeeze (squeeze s) = squeeze s := by
  simp [squeeze, squeezeChars_idem]

theorem filter_dropWhile_isBlank (s : List Char) :
    (s.dropWhile isBlank).filter (!isBlank ·) = s.filter (!isBlank ·) := by
  induction s with
  | nil => rfl
  | cons c s ih =>
    by_cases hc : isBlank c = true
    · simp [hc, ih]
    · simp [hc]

theorem squeezeChars_trimChars (s : List Char) : squeezeChars (trimChars s) = squeezeChars s := by
  simp only [squeezeChars, trimChars, trimStartChars, List.filter_reverse,
    filter_dropWhile_isBlank, List.reverse_reverse]

theorem trimChars_of_forall {s : List Char} (h : ∀ c ∈ s, isBlank c = false) :
    trimChars s = s := by
  have hstart {t : List Char} (ht : ∀ c ∈ t, isBlank c = false) : t.dropWhile isBlank = t := by
    cases t with
    | nil => rfl
    | cons c t => simp [ht c (by simp)]
  rw [trimChars, trimStartChars, trimStartChars, hstart h, hstart, List.reverse_reverse]
  exact fun c hc => h c (List.mem_reverse.1 hc)

theorem trimChars_squeezeChars (s : List Char) : trimChars (squeezeChars s) = squeezeChars s :=
  trimChars_of_forall fun _ hc => (mem_squeezeChars.1 hc).2

/-- A text that starts with a word starts with it when it is trimmed. -/
theorem prefix_trimChars {w s : List Char} (hw : ∀ c ∈ w, isBlank c = false) (h : w <+: s) :
    w <+: trimChars s := by
  obtain ⟨t, rfl⟩ := h
  have hend : w <+: (w ++ t).rdropWhile isBlank := by
    induction t using List.reverseRecOn with
    | nil =>
      have hkept : w.rdropWhile isBlank = w :=
        List.rdropWhile_eq_self_iff.2 fun hne => by simp [hw]
      simp only [List.append_nil, hkept, List.prefix_rfl]
    | append_singleton t c ih =>
      rw [← List.append_assoc, List.rdropWhile_concat]
      split
      · exact ih
      · rw [List.append_assoc]
        exact List.prefix_append w _
  cases w with
  | nil => exact List.nil_prefix
  | cons c w =>
    rw [trimChars_eq, List.cons_append, List.dropWhile_cons_of_neg (by simp [hw]),
      ← List.cons_append]
    exact hend

theorem trimChars_eq_nil_iff {s : List Char} : trimChars s = [] ↔ squeezeChars s = [] := by
  constructor
  · intro h
    rw [← squeezeChars_trimChars, h]
    rfl
  · intro h
    have hblank : ∀ c ∈ s, isBlank c = true := by
      simpa [squeezeChars] using h
    have hstart : trimStartChars s = [] := List.dropWhile_eq_nil_iff.2 hblank
    rw [trimChars, hstart]
    rfl

theorem squeezeChars_eq_trimChars_iff {s : List Char} :
    squeezeChars s = trimChars s ↔ ∀ c ∈ trimChars s, isBlank c = false := by
  rw [← squeezeChars_trimChars]
  simp [squeezeChars]

end TagRetention.Text
