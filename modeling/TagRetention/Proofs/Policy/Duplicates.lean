import TagRetention.Proofs.Policy.Acceptance

/-!
Duplicates in an accepted policy. The check holds the normal form of a rule against the earlier
rules as they were sent, so two rules with colliding normal forms pass if the first of them was not
sent in normal form.
-/

namespace TagRetention

theorem check_eq_ok_iff_getElem (p : Policy) (m : Catalog) :
    p.check m = .ok () ↔
      (∀ r ∈ p.rules, r.Admissible m) ∧ checkCron p.trigger.cron = .ok () ∧
        ∀ i j (hij : i < j) (hj : j < p.rules.length),
          p.rules[i].normalize.collides p.rules[j].normalize m = true →
            ¬ p.rules[i].IsNormal m := by
  rw [check_eq_ok_iff, List.pairwise_iff_getElem]
  simp only [Rule.normalize_collides_eq_false_iff]
  constructor
  · rintro ⟨ha, hp, hc⟩
    exact ⟨ha, hc, fun i j hij hj => hp i j (hij.trans hj) hj hij⟩
  · rintro ⟨ha, hc, hp⟩
    exact ⟨ha, fun i j _ hj hij => hp i j hij hj, hc⟩

theorem checkRules_pair_eq_ok_iff {a b : Rule} {m : Catalog} (ha : a.Admissible m)
    (hb : b.Admissible m) :
    checkRules [] m [a, b] = .ok () ↔
      (a.normalize.collides b.normalize m = true → ¬ a.IsNormal m) := by
  rw [checkRules_eq_ok_iff, ← Rule.normalize_collides_eq_false_iff]
  simp [ha, hb]

theorem checkRules_swap_iff {a b : Rule} {m : Catalog} (ha : a.Admissible m)
    (hb : b.Admissible m) :
    (checkRules [] m [a, b] = .ok () ↔ checkRules [] m [b, a] = .ok ()) ↔
      (a.normalize.collides b.normalize m = true → (a.IsNormal m ↔ b.IsNormal m)) := by
  rw [checkRules_pair_eq_ok_iff ha hb, checkRules_pair_eq_ok_iff hb ha,
    Rule.collides_comm b.normalize]
  by_cases h : a.normalize.collides b.normalize m = true
  · simp only [h, true_implies, not_iff_not]
  · simp [h]

/-- Exactly when two rules with colliding normal forms are accepted, when none are, and when it
matters which of two rules comes first. -/
theorem accepted_duplicates (m : Catalog) :
    (∀ p : Policy, p.check m = .ok () ↔
      (∀ r ∈ p.rules, r.Admissible m) ∧ checkCron p.trigger.cron = .ok () ∧
        ∀ i j (hij : i < j) (hj : j < p.rules.length),
          p.rules[i].normalize.collides p.rules[j].normalize m = true →
            ¬ p.rules[i].IsNormal m) ∧
      (∀ p : Policy, p.check m = .ok () →
        ∀ i j (hij : i < j) (hj : j < p.rules.length), p.rules[i].IsNormal m →
          p.rules[i].normalize.collides p.rules[j].normalize m = false) ∧
      ∀ a b : Rule, a.Admissible m → b.Admissible m →
        ((checkRules [] m [a, b] = .ok () ↔ checkRules [] m [b, a] = .ok ()) ↔
          (a.normalize.collides b.normalize m = true → (a.IsNormal m ↔ b.IsNormal m))) := by
  refine ⟨fun p => check_eq_ok_iff_getElem p m, ?_, fun a b => checkRules_swap_iff⟩
  intro p hp i j hij hj hn
  obtain ⟨-, -, hd⟩ := (check_eq_ok_iff_getElem p m).mp hp
  rw [← Bool.not_eq_true]
  exact fun h => hd i j hij hj h hn

def Policy.ofRules (rules : List Rule) : Policy :=
  { Policy.forProject 1 with rules := rules }

theorem accepted_duplicates_apart :
    (Policy.ofRules [.keepAlways "library/*", .keepAlways "team/*"]).check .standard = .ok () ∧
      (Rule.keepAlways "library/*").IsNormal .standard ∧
      (Rule.keepAlways "library/*").normalize.collides (Rule.keepAlways "team/*").normalize
        .standard = false := by
  have hp : (Policy.ofRules [.keepAlways "library/*", .keepAlways "team/*"]).check .standard =
      .ok () := by decide +kernel
  have hn : (Rule.keepAlways "library/*").IsNormal .standard := by
    unfold Rule.IsNormal
    decide +kernel
  exact ⟨hp, hn, (accepted_duplicates .standard).2.1 _ hp 0 1 (by decide) (by decide) hn⟩

/-- A blank in the first pattern hides that the second rule is the same; the other way round the
policy is refused. -/
theorem accepted_blank_before_plain :
    (Policy.ofRules [.keepAlways "library/* ", .keepAlways "library/*"]).check .standard = .ok () ∧
      (Rule.keepAlways "library/* ").normalize.collides (Rule.keepAlways "library/*").normalize
        .standard = true ∧
      (Policy.ofRules [.keepAlways "library/*", .keepAlways "library/* "]).check .standard =
        .error (.rule .duplicate) := by
  decide +kernel

end TagRetention
