import TagRetention.Proofs.Policy.Acceptance

/-!
What the check says of an accepted policy, rule by rule and without the functions that it calls.
-/

namespace TagRetention

/-- The normal form of the rule names something, has a parameter in range and does not leave out
every repository. -/
structure Rule.Fit (r : Rule) (m : Catalog) : Prop where
  known : (m.template? r.template).isSome = true
  template_ne : r.template ≠ ""
  repositories_ne : Pattern.stripBraces r.normalize.repository.pattern ≠ ""
  tags_ne : Pattern.stripBraces r.normalize.tag.pattern ≠ ""
  param : m.hasParam r.template = true →
    ∃ n, r.normalize.paramNumber? = some n ∧ 0 ≤ n ∧ n < 2100000000
  keepsSome : r.repository.decoration = .repoExcludes →
    "**" ∉ Text.split ',' (Pattern.stripBraces r.normalize.repository.pattern)

theorem Rule.exists_of_hasNumber {r : Rule} (h : r.hasNumber = true) :
    ∃ n, r.paramNumber? = some n ∧ 0 ≤ n ∧ n < 2100000000 := by
  unfold hasNumber at h
  split at h
  · rename_i n hn
    exact ⟨n, hn, of_decide_eq_true h⟩
  · cases h

theorem Rule.Admissible.fit {r : Rule} {m : Catalog} (h : r.Admissible m) : r.Fit m := by
  have hcomplete := h.complete
  simp only [isComplete, Bool.and_eq_true, Bool.or_eq_true, bne_iff_ne,
    Bool.not_eq_true'] at hcomplete
  obtain ⟨⟨⟨htemplate, hrepositories⟩, htags⟩, hparam⟩ := hcomplete
  refine ⟨h.known, htemplate, hrepositories, htags, fun hp => ?_, fun hd hmem => ?_⟩
  · apply exists_of_hasNumber
    rcases hparam with hnone | hnumber
    · exact absurd (hp.symm.trans hnone) (by decide)
    · exact hnumber
  · have hall : r.normalize.excludesAll = true := by
      have hexcludes : r.normalize.repository.decoration = .repoExcludes := hd
      simp only [excludesAll, hexcludes, wildcard, List.contains_iff_mem.mpr hmem]
      rfl
    rw [h.keepsSome] at hall
    cases hall

structure Policy.Valid (p : Policy) (m : Catalog) : Prop where
  rules : ∀ r ∈ p.rules, r.Fit m
  cron : p.trigger.cron = "" ∨ (Text.words p.trigger.cron.toList).length = 6

theorem checkCron_eq_ok_iff (cron : String) :
    checkCron cron = .ok () ↔ cron = "" ∨ (Text.words cron.toList).length = 6 := by
  by_cases hempty : cron = ""
  · simp [checkCron, hempty]
  · by_cases hsix : (Text.words cron.toList).length = 6 <;> simp [checkCron, hempty, hsix]

theorem Policy.valid_of_check {p : Policy} {m : Catalog} (h : p.check m = .ok ()) : p.Valid m := by
  obtain ⟨hrules, -, hcron⟩ := (check_eq_ok_iff p m).mp h
  exact ⟨fun r hr => (hrules r hr).fit, (checkCron_eq_ok_iff _).mp hcron⟩

end TagRetention
