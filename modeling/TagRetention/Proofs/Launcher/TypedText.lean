import TagRetention.Proofs.Launcher.Selection
import TagRetention.Proofs.Policy.Acceptance
import TagRetention.Proofs.Selector.Codec

/-!
From the text that a user types for the repositories of a rule to the repositories of a run. On the
way the text gets braces if it has several values, loses its blanks and is taken apart again.
-/

namespace TagRetention

open Text

namespace Pattern

variable {s : List Char}

/-- The values of a typed text, unless it is one value in braces. -/
theorem trimmedChars_squeezeChars_encodeChars
    (h : ',' ∈ s ∨ isWrapped (squeezeChars s) = false) :
    trimmedChars (squeezeChars (encodeChars (splitChars ',' s))) =
      ((splitChars ',' s).map squeezeChars).filter (· ≠ []) := by
  rw [encodeChars_splitChars]
  -- the added braces are the pair that is taken off; without them no pair may be there
  by_cases hcomma : ',' ∈ s
  · have hwrapped : isWrapped ('\x7b' :: (s ++ ['\x7d'])) = true := isWrapped_iff.mpr ⟨s, rfl⟩
    have hsame := (isWrapped_squeezeChars hwrapped).trans hwrapped.symm
    rw [if_pos hcomma, trimmedChars_squeezeChars hsame, decodeChars, unwrapChars_wrapped]
  · have hsqueeze : isWrapped (squeezeChars s) = false := h.resolve_left hcomma
    have hplain : isWrapped s = false := by
      by_contra hs
      rw [Bool.not_eq_false] at hs
      rw [isWrapped_squeezeChars hs] at hsqueeze
      cases hsqueeze
    rw [if_neg hcomma, trimmedChars_squeezeChars (hsqueeze.trans hplain.symm), decodeChars,
      unwrapChars_of_not_isWrapped hplain]

theorem isWrapped_squeezeChars_eq_false {text : String}
    (h : ∀ inner, squeeze text ≠ "\x7b" ++ inner ++ "\x7d") :
    isWrapped (squeezeChars text.toList) = false := by
  rw [← Bool.not_eq_true, isWrapped_iff]
  rintro ⟨inner, hinner⟩
  apply h (String.ofList inner)
  rw [squeeze, hinner, ← String.toList_inj]
  simp

end Pattern

/-- The values that a text has between its commas, without their blanks, each once. -/
def typedValues (text : String) : List String :=
  (((split ',' text).map squeeze).filter (· ≠ "")).eraseDups

variable {f : RuleForm} {m : Catalog} {r : Rule} {p : Policy}

theorem repositories_normalize_toRule
    (htext : ',' ∈ f.repositories.toList ∨
      ∀ inner, squeeze f.repositories ≠ "\x7b" ++ inner ++ "\x7d") :
    f.toRule.normalize.repositories =
      ((split ',' f.repositories).map squeeze).filter (· ≠ "") := by
  have hpattern : f.toRule.normalize.repository.pattern.toList =
      squeezeChars (Pattern.encodeChars (splitChars ',' f.repositories.toList)) := by
    have hfield : f.toRule.repository.pattern = Pattern.ofField f.repositories := rfl
    have hvalues : (split ',' f.repositories).map String.toList =
        splitChars ',' f.repositories.toList := by
      rw [split, List.map_map]
      exact (List.map_congr_left fun v _ => String.toList_ofList).trans (List.map_id _)
    rw [Rule.normalize, squeeze, String.toList_ofList, hfield, Pattern.ofField, Pattern.encode,
      String.toList_ofList, hvalues]
  have hsqueeze : (split ',' f.repositories).map squeeze =
      ((splitChars ',' f.repositories.toList).map squeezeChars).map String.ofList := by
    rw [split, List.map_map, List.map_map]
    exact List.map_congr_left fun v _ => by simp [squeeze]
  rw [Rule.repositories_eq, hpattern, hsqueeze, filter_map_ofList,
    Pattern.trimmedChars_squeezeChars_encodeChars
      (htext.imp_right Pattern.isWrapped_squeezeChars_eq_false)]

theorem targets_of_single_rule (hp : p.rules = [r]) (hon : r.disabled = false)
    (hmatch : r.repository.decoration = .repoMatches) :
    p.targets = r.repositories.eraseDups := by
  have hselecting : p.selecting = [r] := by
    simp [Policy.selecting, hp, hon, hmatch]
  have htargets : p.targets = distinct (p.selecting.flatMap Rule.repositories) := rfl
  rw [htargets, hselecting, List.flatMap_singleton, distinct_eq_eraseDups]

/-- A run has the repositories that the user typed, unless a single value stands in braces. -/
theorem targets_of_typed_text (hmatch : f.repositoryDecoration = .repoMatches)
    (hon : f.disabled = false) (hvalid : f.toRule.validate [] m = .ok r)
    (htext : ',' ∈ f.repositories.toList ∨
      ∀ inner, squeeze f.repositories ≠ "\x7b" ++ inner ++ "\x7d")
    (hp : p.rules = [r]) : p.targets = typedValues f.repositories := by
  obtain ⟨rfl, -⟩ := (Rule.validate_eq_ok_iff _ _ _ _).mp hvalid
  rw [targets_of_single_rule hp hon hmatch, repositories_normalize_toRule htext]
  rfl

def bracedForm : RuleForm :=
  { RuleForm.ofRule Rule.blank with
    template := "always"
    repositories := "\x7bb , a,,\x7bb,c d\x7d"
    tags := "**" }

theorem targets_of_typed_braces :
    ∃ r, bracedForm.toRule.validate [] .standard = .ok r ∧
      (Policy.ofRules [r]).targets = ["\x7bb", "a", "cd\x7d"] := by
  have hkeeps : bracedForm.toRule.normalize.excludesAll = false := by decide +kernel
  have hcomplete : bracedForm.toRule.normalize.isComplete .standard = true := by decide +kernel
  have hvalid : bracedForm.toRule.validate [] .standard = .ok bracedForm.toRule.normalize :=
    (Rule.validate_eq_ok_iff _ _ _ _).mpr ⟨rfl, hkeeps, hcomplete, nofun⟩
  have hcomma : ',' ∈ bracedForm.repositories.toList := by decide +kernel
  have hvalues : typedValues bracedForm.repositories = ["\x7bb", "a", "cd\x7d"] := by
    decide +kernel
  refine ⟨_, hvalid, ?_⟩
  rw [targets_of_typed_text rfl rfl hvalid (.inl hcomma) rfl, hvalues]

end TagRetention
