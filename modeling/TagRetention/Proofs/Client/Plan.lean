import TagRetention.Client.Mutation
import TagRetention.Proofs.Policy.Acceptance

/-!
Plans of mutations. A plan that leads to a write is for the effect of the mutation, which does not
depend on the policy; a plan that fails does so over the rule.
-/

namespace TagRetention.Client

theorem Edit.scope_apply (edit : Edit) (p : Policy) : (edit.apply p).scope = p.scope := by
  cases edit with
  | removeRule index =>
    simp only [apply, Policy.removeRule]
    split
    · split <;> rfl
    · rfl
  | _ => rfl

namespace Mutation

/-- The effect that the mutation has on a policy when it is let through. -/
def effect : Mutation → Edit
  | .setTrigger cron => .setCron cron
  | .addRule r => .addRule r.normalize
  | .editRule index r => .replaceRule index r.normalize
  | .toggleRule index disabled => .setDisabled index disabled
  | .deleteRule index => .removeRule index

variable {m : Catalog} {c : Mutation} {p : Policy} {edit : Edit}

theorem validated_cases (r : Rule) (others : List Rule) (m : Catalog) (edit : Rule → Edit) :
    (∃ f, validated r others m edit = .error (.invalidRule f)) ∨
      validated r others m edit = .ok (some (edit r.normalize)) := by
  unfold validated
  cases hs : r.validate others m with
  | error f => exact .inl ⟨f, rfl⟩
  | ok s =>
    obtain ⟨rfl, -⟩ := (r.validate_eq_ok_iff s others m).1 hs
    exact .inr rfl

/-- The ways a plan ends: the mutation is refused here, has nothing to do, or is to be written. -/
theorem plan_cases (c : Mutation) (p : Policy) (m : Catalog) :
    (∃ f, c.plan p m = .error (.invalidRule f)) ∨ (∃ i, c.plan p m = .error (.noRule i)) ∨
      c.plan p m = .ok none ∨ c.plan p m = .ok (some c.effect) := by
  cases c with
  | setTrigger cron => exact .inr (.inr (.inr rfl))
  | addRule r =>
    rcases validated_cases r p.rules m .addRule with ⟨f, h⟩ | h
    · exact .inl ⟨f, h⟩
    · exact .inr (.inr (.inr h))
  | editRule i r =>
    simp only [plan]
    split
    · exact .inr (.inl ⟨i, rfl⟩)
    · split
      · exact .inr (.inr (.inl rfl))
      · rcases validated_cases r.normalize (p.rules.eraseIdx i) m (.replaceRule i) with ⟨f, h⟩ | h
        · exact .inl ⟨f, h⟩
        · rw [Rule.normalize_idem] at h
          exact .inr (.inr (.inr h))
  | toggleRule i disabled =>
    simp only [plan]
    split
    · exact .inr (.inr (.inr rfl))
    · exact .inr (.inl ⟨i, rfl⟩)
  | deleteRule i =>
    simp only [plan]
    split
    · exact .inr (.inr (.inr rfl))
    · exact .inr (.inl ⟨i, rfl⟩)

theorem eq_effect_of_plan (h : c.plan p m = .ok (some edit)) : edit = c.effect := by
  rcases plan_cases c p m with ⟨f, hc⟩ | ⟨i, hc⟩ | hc | hc <;> rw [hc] at h <;> cases h
  rfl

theorem plan_ne_refresh (c : Mutation) (p : Policy) (m : Catalog) (f : ServiceFault) :
    c.plan p m ≠ .error (.refresh f) := by
  rcases plan_cases c p m with ⟨f, hc⟩ | ⟨i, hc⟩ | hc | hc <;> rw [hc] <;> nofun

/-- What the mutation makes of a policy: one rule or the cron is different, the other rules are as
they were and in their order, and a policy that loses its last rule loses its cron. -/
def Amends (c : Mutation) (p d : Policy) : Prop :=
  d.id = p.id ∧ d.scope = p.scope ∧ d.trigger.kind = p.trigger.kind ∧
    match c with
    | .setTrigger cron => d.rules = p.rules ∧ d.trigger.cron = cron
    | .addRule r => d.rules = p.rules ++ [r.normalize] ∧ d.trigger.cron = p.trigger.cron
    | .editRule i r =>
      (∃ before old after, p.rules = before ++ old :: after ∧ before.length = i ∧
        d.rules = before ++ r.normalize :: after) ∧ d.trigger.cron = p.trigger.cron
    | .toggleRule i disabled =>
      (∃ before old after, p.rules = before ++ old :: after ∧ before.length = i ∧
        d.rules = before ++ { old with disabled := disabled } :: after) ∧
          d.trigger.cron = p.trigger.cron
    | .deleteRule i =>
      (∃ before old after, p.rules = before ++ old :: after ∧ before.length = i ∧
        d.rules = before ++ after) ∧
          d.trigger.cron = if d.rules.isEmpty then "" else p.trigger.cron

/-- A plan looks up the rule that it changes. -/
theorem lt_length_of_plan {i : Nat} {r : Rule} (h : (editRule i r).plan p m = .ok (some edit)) :
    i < p.rules.length := by
  simp only [plan] at h
  split at h
  · cases h
  · rename_i hi
    exact (List.getElem?_eq_some_iff.1 hi).1

theorem amends_of_plan (h : c.plan p m = .ok (some edit)) : c.Amends p (edit.apply p) := by
  obtain rfl := eq_effect_of_plan h
  cases c with
  | setTrigger cron => exact ⟨rfl, rfl, rfl, rfl, rfl⟩
  | addRule r => exact ⟨rfl, rfl, rfl, rfl, rfl⟩
  | editRule i r =>
    obtain ⟨before, after, hsplit, hlength, hset⟩ :=
      @List.exists_of_set _ i r.normalize p.rules (lt_length_of_plan h)
    exact ⟨rfl, rfl, rfl, ⟨before, _, after, hsplit, hlength, hset⟩, rfl⟩
  | toggleRule i disabled =>
    have hi : i < p.rules.length := by
      by_contra hi
      simp only [plan, if_neg hi] at h
      cases h
    obtain ⟨before, old, after, hsplit, hlength, hmodify⟩ :=
      List.exists_of_modify ({ · with disabled := disabled }) hi
    exact ⟨rfl, rfl, rfl, ⟨before, old, after, hsplit, hlength, hmodify⟩, rfl⟩
  | deleteRule i =>
    have hi : i < p.rules.length := by
      by_contra hi
      simp only [plan, if_neg hi] at h
      cases h
    obtain ⟨before, old, after, hsplit, hlength, -⟩ := List.exists_of_modify id hi
    have herase : p.rules.eraseIdx i = before ++ after := by
      rw [hsplit, ← hlength, List.eraseIdx_append_of_length_le (Nat.le_refl _), Nat.sub_self]
      rfl
    simp only [effect, Edit.apply, Policy.removeRule, if_pos hi]
    split
    · rename_i hempty
      exact ⟨rfl, rfl, rfl, ⟨before, _, after, hsplit, hlength, herase⟩, (if_pos hempty).symm⟩
    · rename_i hsome
      exact ⟨rfl, rfl, rfl, ⟨before, _, after, hsplit, hlength, herase⟩, (if_neg hsome).symm⟩

end Mutation

end TagRetention.Client
