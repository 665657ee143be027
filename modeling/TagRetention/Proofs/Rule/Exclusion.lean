import TagRetention.Proofs.Selector.Codec
import TagRetention.Rule.Validation

/-!
Rules that leave out every repository. The check deletes all braces and cuts at commas, and finds
the wildcard exactly where a value of the pattern is the wildcard but for braces.
-/

namespace TagRetention.Rule

open Pattern Text

theorem excludesAll_iff (r : Rule) :
    r.excludesAll = true ↔ r.repository.decoration = .repoExcludes ∧
      ∃ t ∈ decode r.repository.pattern, stripBraces t = wildcard := by
  have hexcludes : (r.repository.decoration != .repoMatches) = true ↔
      r.repository.decoration = .repoExcludes := by
    cases r.repository.decoration <;> simp
  rw [excludesAll, Bool.and_eq_true, hexcludes, List.contains_iff_mem, ← map_stripBraces_decode,
    List.mem_map]

theorem prepare_eq_error_iff (r : Rule) :
    r.prepare = .error .wildcardExclusion ↔ r.normalize.excludesAll = true := by
  rw [prepare]
  split
  · rename_i h
    simp [h]
  · rename_i h
    simp [h]

theorem prepare_eq_ok_iff (r s : Rule) :
    r.prepare = .ok s ↔ s = r.normalize ∧ r.normalize.excludesAll = false := by
  rw [prepare]
  split
  · rename_i h
    simp [h]
  · rename_i h
    simp [h, eq_comm]

theorem excludesAll_normalize_iff (r : Rule) :
    r.normalize.excludesAll = true ↔ r.repository.decoration = .repoExcludes ∧
      ∃ t ∈ decode r.repository.pattern, stripBraces (squeeze t) = wildcard := by
  have hvalues : (decode r.normalize.repository.pattern).map stripBraces =
      (decode r.repository.pattern).map fun t => stripBraces (squeeze t) := by
    rw [map_stripBraces_decode, map_stripBraces_squeeze_decode, normalize]
  have hmem : wildcard ∈ (decode r.normalize.repository.pattern).map stripBraces ↔
      wildcard ∈ (decode r.repository.pattern).map fun t => stripBraces (squeeze t) := by
    rw [hvalues]
  rw [excludesAll_iff, ← List.mem_map, hmem, List.mem_map]
  rfl

/-- A rule is refused exactly if it leaves out a value that is the wildcard but for braces. So no
value of a rule that passes is the wildcard, not even one as it was sent, blanks and braces aside. -/
theorem wildcard_exclusion_refused (r : Rule) :
    (r.prepare = .error .wildcardExclusion ↔
      r.repository.decoration = .repoExcludes ∧
        ∃ t ∈ decode r.normalize.repository.pattern, stripBraces t = "**") ∧
      ∀ s, r.prepare = .ok s → r.repository.decoration = .repoExcludes →
        "**" ∉ decode s.repository.pattern ∧
          ∀ t ∈ decode r.repository.pattern, stripBraces (squeeze t) ≠ "**" := by
  constructor
  · rw [prepare_eq_error_iff, excludesAll_iff]
    rfl
  · intro s hs hexcludes
    obtain ⟨rfl, hkeeps⟩ := (prepare_eq_ok_iff r s).mp hs
    rw [← Bool.not_eq_true] at hkeeps
    constructor
    · intro hmem
      exact hkeeps ((excludesAll_iff _).mpr ⟨hexcludes, "**", hmem, by decide +kernel⟩)
    · intro t ht hwild
      exact hkeeps ((excludesAll_normalize_iff r).mpr ⟨hexcludes, t, ht, hwild⟩)

def leavingOut (repositories : String) : Rule :=
  { Rule.blank with
    template := "always"
    repository := RepositoryDecoration.repoExcludes.selector repositories
    tag := TagDecoration.matches.selector "**" }

theorem wildcard_exclusion_passes_longer_names :
    let r := leavingOut " \x7b library/** ,\x7b***,"
    r.prepare = .ok r.normalize ∧ "**" ∉ decode r.normalize.repository.pattern ∧
      ∀ t ∈ decode r.repository.pattern, stripBraces (squeeze t) ≠ "**" := by
  intro r
  have hpasses : r.prepare = .ok r.normalize :=
    (prepare_eq_ok_iff r _).mpr ⟨rfl, by decide +kernel⟩
  exact ⟨hpasses, (wildcard_exclusion_refused r).2 _ hpasses rfl⟩

/-- A brace that is never closed hides no wildcard. -/
example : (leavingOut "\x7bfoo, \x7b* *").prepare = .error .wildcardExclusion := by
  rfl

end TagRetention.Rule
