import TagRetention.Policy.Check
import TagRetention.Proofs.Rule.Collision

/-!
What the check of a policy accepts: each rule is admissible by itself, no normal form collides with
an earlier rule as it was sent, and the cron is fine.
-/

namespace TagRetention

/-- What the check asks of a rule apart from the rules before it. -/
structure Rule.Admissible (r : Rule) (m : Catalog) : Prop where
  known : (m.template? r.template).isSome = true
  keepsSome : r.normalize.excludesAll = false
  complete : r.normalize.isComplete m = true

def Rule.keepAlways (repositories : String) : Rule :=
  { Rule.blank with
    template := "always"
    repository := RepositoryDecoration.repoMatches.selector repositories
    tag := TagDecoration.matches.selector "**" }

theorem Rule.isDuplicate_eq_false_iff (r : Rule) (existing : List Rule) (m : Catalog) :
    r.isDuplicate existing m = false ↔ ∀ e ∈ existing, r.collides e m = false := by
  simp [Rule.isDuplicate]

theorem Rule.validate_eq_ok_iff (r s : Rule) (existing : List Rule) (m : Catalog) :
    r.validate existing m = .ok s ↔
      s = r.normalize ∧ r.normalize.excludesAll = false ∧ r.normalize.isComplete m = true ∧
        ∀ e ∈ existing, r.normalize.collides e m = false := by
  rw [← Rule.isDuplicate_eq_false_iff]
  unfold Rule.validate Rule.prepare
  cases hx : r.normalize.excludesAll with
  | true => simp [hx]
  | false =>
    cases hc : r.normalize.isComplete m with
    | false => simp [hx, hc]
    | true =>
      cases hd : r.normalize.isDuplicate existing m with
      | true => simp [hx, hc, hd]
      | false => simp [hx, hc, hd, eq_comm]

theorem checkRule_eq_ok_iff (r : Rule) (earlier : List Rule) (m : Catalog) :
    checkRule r earlier m = .ok () ↔
      r.Admissible m ∧ ∀ e ∈ earlier, r.normalize.collides e m = false := by
  unfold checkRule
  cases hk : m.template? r.template with
  | none =>
    simp only [Option.isNone_none, if_true, reduceCtorEq, false_iff]
    rintro ⟨ha, -⟩
    simpa [hk] using ha.known
  | some t =>
    simp only [Option.isNone_some, Bool.false_eq_true, if_false]
    cases hv : r.validate earlier m with
    | error e =>
      simp only [reduceCtorEq, false_iff]
      rintro ⟨ha, hd⟩
      have := (r.validate_eq_ok_iff r.normalize earlier m).mpr ⟨rfl, ha.keepsSome, ha.complete, hd⟩
      rw [hv] at this
      cases this
    | ok s =>
      obtain ⟨-, hx, hc, hd⟩ := (r.validate_eq_ok_iff s earlier m).mp hv
      simp only [true_iff]
      exact ⟨⟨by simp [hk], hx, hc⟩, hd⟩

theorem checkRules_eq_ok_iff (earlier : List Rule) (m : Catalog) (rules : List Rule) :
    checkRules earlier m rules = .ok () ↔
      (∀ r ∈ rules, r.Admissible m) ∧
        (∀ r ∈ rules, ∀ e ∈ earlier, r.normalize.collides e m = false) ∧
        rules.Pairwise fun a b => b.normalize.collides a m = false := by
  induction rules generalizing earlier with
  | nil => simp [checkRules]
  | cons r rest ih =>
    have hr := checkRule_eq_ok_iff r earlier m
    unfold checkRules
    cases h : checkRule r earlier m with
    | error e =>
      rw [h] at hr
      simp only [reduceCtorEq, false_iff, not_and] at hr ⊢
      intro ha hd
      exact absurd (hd r (by simp)) (hr (ha r (by simp)))
    | ok u =>
      obtain ⟨ha, hd⟩ := hr.mp h
      simp only [ih, List.forall_mem_cons, List.mem_append, List.pairwise_cons]
      constructor
      · rintro ⟨has, hds, hp⟩
        exact ⟨⟨ha, has⟩, ⟨hd, fun s hs e he => hds s hs e (.inl he)⟩,
          fun s hs => hds s hs r (.inr (by simp)), hp⟩
      · rintro ⟨⟨-, has⟩, ⟨-, hds⟩, hrs, hp⟩
        refine ⟨has, ?_, hp⟩
        rintro s hs e (he | he)
        · exact hds s hs e he
        · rw [List.mem_singleton.mp he]
          exact hrs s hs

theorem check_eq_ok_iff (p : Policy) (m : Catalog) :
    p.check m = .ok () ↔
      (∀ r ∈ p.rules, r.Admissible m) ∧
        p.rules.Pairwise (fun a b => b.normalize.collides a m = false) ∧
        checkCron p.trigger.cron = .ok () := by
  have hr := checkRules_eq_ok_iff [] m p.rules
  unfold Policy.check
  cases h : checkRules [] m p.rules with
  | error e =>
    rw [h] at hr
    simp only [reduceCtorEq, false_iff] at hr ⊢
    rintro ⟨ha, hp, -⟩
    exact hr ⟨ha, by simp, hp⟩
  | ok u =>
    obtain ⟨ha, -, hp⟩ := hr.mp h
    simp only [and_iff_right ha, and_iff_right hp]

end TagRetention
