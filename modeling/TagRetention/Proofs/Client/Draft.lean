import Mathlib.Data.List.Perm.Basic
import TagRetention.Client.LocalService
import TagRetention.Proofs.Client.Requests
import TagRetention.Proofs.Policy.Acceptance

/-!
Drafts pass the check of the service. The rules of a draft are admissible, in normal form and
pairwise distinct, whatever their order; every change of a draft keeps this.
-/

namespace TagRetention

structure TidyRules (m : Catalog) (rules : List Rule) : Prop where
  valid : ∀ r ∈ rules, r.Admissible m ∧ r.IsNormal m
  distinct : rules.Pairwise fun a b => a.collides b m = false

namespace TidyRules

variable {m : Catalog} {rules : List Rule}

theorem nil : TidyRules m [] := ⟨by simp, .nil⟩

theorem cons_iff (r : Rule) :
    TidyRules m (r :: rules) ↔
      (r.Admissible m ∧ r.IsNormal m) ∧ (∀ e ∈ rules, r.collides e m = false) ∧
        TidyRules m rules := by
  constructor
  · rintro ⟨hv, hd⟩
    obtain ⟨hr, hd⟩ := List.pairwise_cons.mp hd
    exact ⟨hv r (by simp), hr, fun s hs => hv s (by simp [hs]), hd⟩
  · rintro ⟨hr, hd, hv, hp⟩
    exact ⟨List.forall_mem_cons.mpr ⟨hr, hv⟩, List.pairwise_cons.mpr ⟨hd, hp⟩⟩

theorem perm {rules' : List Rule} (h : TidyRules m rules) (hp : rules.Perm rules') :
    TidyRules m rules' := by
  refine ⟨fun r hr => h.valid r (hp.mem_iff.mpr hr), hp.pairwise h.distinct ?_⟩
  intro a b hab
  rwa [Rule.collides_comm]

theorem cons_of_validate {r s : Rule} (h : TidyRules m rules)
    (hk : (m.template? r.template).isSome = true) (hs : r.validate rules m = .ok s) :
    TidyRules m (s :: rules) := by
  obtain ⟨rfl, hx, hc, hd⟩ := (Rule.validate_eq_ok_iff r s rules m).mp hs
  refine (cons_iff _).mpr ⟨⟨⟨hk, ?_, ?_⟩, r.isNormal_normalize m⟩, hd, h⟩
  · rwa [Rule.normalize_idem]
  · rwa [Rule.normalize_idem]

theorem concat_of_validate {r s : Rule} (h : TidyRules m rules)
    (hk : (m.template? r.template).isSome = true) (hs : r.validate rules m = .ok s) :
    TidyRules m (rules ++ [s]) :=
  (h.cons_of_validate hk hs).perm (List.perm_append_singleton s rules).symm

theorem of_getElem {i : Nat} (h : TidyRules m rules) (hi : i < rules.length) :
    TidyRules m (rules[i] :: rules.eraseIdx i) :=
  h.perm (List.getElem_cons_eraseIdx_perm hi).symm

theorem eraseIdx (h : TidyRules m rules) (i : Nat) : TidyRules m (rules.eraseIdx i) :=
  ⟨fun r hr => h.valid r (List.mem_of_mem_eraseIdx hr),
    h.distinct.sublist (List.eraseIdx_sublist rules i)⟩

theorem set_of_validate {r s : Rule} {i : Nat} (h : TidyRules m rules) (hi : i < rules.length)
    (hk : (m.template? r.template).isSome = true)
    (hs : r.validate (rules.eraseIdx i) m = .ok s) : TidyRules m (rules.set i s) :=
  ((h.eraseIdx i).cons_of_validate hk hs).perm (List.set_perm_cons_eraseIdx hi s).symm

theorem setDisabled (h : TidyRules m rules) (i : Nat) (disabled : Bool) (hi : i < rules.length) :
    TidyRules m (rules.modify i ({ · with disabled := disabled })) := by
  -- neither the checks of a rule nor collisions look at whether it is disabled
  obtain ⟨⟨⟨hk, hx, hc⟩, hn⟩, hd, ht⟩ := (cons_iff _).mp (h.of_getElem hi)
  have hr : TidyRules m ({ rules[i] with disabled := disabled } :: rules.eraseIdx i) :=
    (cons_iff _).mpr ⟨⟨⟨hk, hx, hc⟩, hn⟩, hd, ht⟩
  rw [List.modify_eq_set, List.getElem?_eq_getElem hi, Option.getD_some]
  exact hr.perm (List.set_perm_cons_eraseIdx hi _).symm

end TidyRules

structure Policy.Tidy (p : Policy) (m : Catalog) : Prop where
  rules : TidyRules m p.rules
  cron : checkCron p.trigger.cron = .ok ()

theorem Policy.Tidy.check {p : Policy} {m : Catalog} (h : p.Tidy m) : p.check m = .ok () := by
  rw [check_eq_ok_iff]
  refine ⟨fun r hr => (h.rules.valid r hr).1, ?_, h.cron⟩
  refine h.rules.distinct.imp_of_mem fun {a b} _ hb hab => ?_
  rwa [(h.rules.valid b hb).2.normalize_collides, Rule.collides_comm]

theorem Policy.tidy_forProject (project : ProjectId) (m : Catalog) :
    (Policy.forProject project).Tidy m :=
  ⟨.nil, by simp [Policy.forProject, Trigger.unscheduled, checkCron]⟩

namespace Client

namespace Mutation

/-- A submitted rule names a template of the catalog, and a cron passes the check. -/
def Proper (m : Catalog) : Mutation → Prop
  | .setTrigger cron => checkCron cron = .ok ()
  | .addRule r => (m.template? r.template).isSome = true
  | .editRule _ r => (m.template? r.template).isSome = true
  | .toggleRule _ _ => True
  | .deleteRule _ => True

instance (m : Catalog) : DecidablePred (Proper m)
  | .setTrigger cron => inferInstanceAs (Decidable (checkCron cron = .ok ()))
  | .addRule r => inferInstanceAs (Decidable ((m.template? r.template).isSome = true))
  | .editRule _ r => inferInstanceAs (Decidable ((m.template? r.template).isSome = true))
  | .toggleRule _ _ => inferInstanceAs (Decidable True)
  | .deleteRule _ => inferInstanceAs (Decidable True)

/-- The draft after the mutation. One that is refused or has no effect leaves it as it is. -/
def advance (m : Catalog) (p : Policy) (c : Mutation) : Policy :=
  match c.plan p m with
  | .ok (some edit) => edit.apply p
  | _ => p

theorem tidy_of_plan {m : Catalog} {p : Policy} {c : Mutation} {edit : Edit} (h : p.Tidy m)
    (hc : c.Proper m) (hp : c.plan p m = .ok (some edit)) : (edit.apply p).Tidy m := by
  cases c with
  | setTrigger cron =>
    cases hp
    exact ⟨h.rules, hc⟩
  | addRule r =>
    simp only [plan, validated] at hp
    cases hs : r.validate p.rules m with
    | error e => simp [hs] at hp
    | ok s =>
      rw [hs] at hp
      cases hp
      exact ⟨h.rules.concat_of_validate hc hs, h.cron⟩
  | editRule i r =>
    simp only [plan, validated] at hp
    cases hi : p.rules[i]? with
    | none => simp [hi] at hp
    | some current =>
      obtain ⟨hi', -⟩ := List.getElem?_eq_some_iff.mp hi
      simp only [hi] at hp
      split at hp
      · cases hp
      · cases hs : r.normalize.validate (p.rules.eraseIdx i) m with
        | error e => simp [hs] at hp
        | ok s =>
          rw [hs] at hp
          cases hp
          have hk : (m.template? r.normalize.template).isSome = true := hc
          exact ⟨h.rules.set_of_validate hi' hk hs, h.cron⟩
  | toggleRule i disabled =>
    simp only [plan] at hp
    split at hp
    · rename_i hi
      cases hp
      exact ⟨h.rules.setDisabled i disabled hi, h.cron⟩
    · cases hp
  | deleteRule i =>
    simp only [plan] at hp
    split at hp
    · rename_i hi
      cases hp
      simp only [Edit.apply, Policy.removeRule, hi, if_true]
      split
      · exact ⟨h.rules.eraseIdx i, by simp [Policy.setCron, checkCron]⟩
      · exact ⟨h.rules.eraseIdx i, h.cron⟩
    · cases hp

theorem tidy_advance {m : Catalog} {p : Policy} {c : Mutation} (h : p.Tidy m)
    (hc : c.Proper m) : (advance m p c).Tidy m := by
  unfold advance
  split
  · rename_i edit hp
    exact tidy_of_plan h hc hp
  · exact h

theorem tidy_foldl_advance {m : Catalog} (changes : List Mutation) {p : Policy} (h : p.Tidy m)
    (hc : ∀ c ∈ changes, c.Proper m) : (changes.foldl (advance m) p).Tidy m := by
  induction changes generalizing p with
  | nil => exact h
  | cons c rest ih =>
    exact ih (tidy_advance h (hc c (by simp))) fun d hd => hc d (by simp [hd])

/-- A plan does not look at the id, and its effect keeps it. -/
theorem plan_withId (p : Policy) (id : Option PolicyId) (m : Catalog) (c : Mutation) :
    c.plan { p with id := id } m = c.plan p m := by
  cases c <;> rfl

theorem apply_withId (p : Policy) (id : Option PolicyId) (edit : Edit) :
    edit.apply { p with id := id } = { edit.apply p with id := id } := by
  cases edit with
  | removeRule i =>
    simp only [Edit.apply, Policy.removeRule, Policy.setCron]
    split
    · split <;> rfl
    · rfl
  | _ => rfl

end Mutation

open Orchestrator in
/-- Every draft passes the check, and an orchestrator that holds a draft sends no other document
than the next one. -/
theorem draft_accepted (m : Catalog) (project : ProjectId) (changes : List Mutation)
    (hchanges : ∀ c ∈ changes, c.Proper m) :
    let draft := changes.foldl (Mutation.advance m) (.forProject project)
    draft.check m = .ok () ∧
      ∀ (S : Type) (service : Service S) (w : S) (o : Orchestrator) (id : Option PolicyId)
        (c : Mutation), o.catalog = m → o.policy = { draft with id := id } → c.Proper m →
        ∀ q ∈ (mutate c).requests service o w, ∀ d, q.document? = some d →
          d = { c.advance m draft with id := id } ∧ d.check m = .ok () := by
  intro draft
  have hdraft : draft.Tidy m :=
    Mutation.tidy_foldl_advance changes (Policy.tidy_forProject project m) hchanges
  refine ⟨hdraft.check, ?_⟩
  intro S service w o id c hm ho hc q hq d hd
  obtain ⟨edit, hp, rfl⟩ := document_of_mutate service c o w hq hd
  rw [hm, ho, Mutation.plan_withId] at hp
  have hnext : c.advance m draft = edit.apply draft := by simp [Mutation.advance, hp]
  have htidy : (edit.apply draft).Tidy m := Mutation.tidy_of_plan hdraft hc hp
  rw [ho, Mutation.apply_withId, hnext]
  exact ⟨rfl, Policy.Tidy.check ⟨htidy.rules, htidy.cron⟩⟩

def changesOfAllKinds : List Mutation :=
  [.addRule (.keepAlways "library/* "), .addRule (.keepAlways "team/*"),
    .editRule 0 (.keepAlways "team/a"), .toggleRule 1 true, .setTrigger dailyCron, .deleteRule 0]

open Orchestrator in
theorem draft_accepted_of_all_kinds :
    (∀ c ∈ changesOfAllKinds, c.Proper .standard) ∧
      (changesOfAllKinds.foldl (Mutation.advance .standard) (.forProject 7)).check .standard =
        .ok () ∧
      .createPolicy ((Policy.forProject 7).addRule (.keepAlways "library/*")) ∈
        (mutate (.addRule (.keepAlways "library/* "))).requests LocalService.service
          { Orchestrator.new 7 with catalog := .standard } .empty ∧
      ((Policy.forProject 7).addRule (.keepAlways "library/*")).check .standard = .ok () := by
  have hc : ∀ c ∈ changesOfAllKinds, c.Proper .standard := by decide +kernel
  have hsent : .createPolicy ((Policy.forProject 7).addRule (.keepAlways "library/*")) ∈
      (mutate (.addRule (.keepAlways "library/* "))).requests LocalService.service
        { Orchestrator.new 7 with catalog := .standard } .empty := List.Mem.head _
  have hproper : (Mutation.addRule (.keepAlways "library/* ")).Proper .standard := by
    decide +kernel
  exact ⟨hc, (draft_accepted .standard 7 changesOfAllKinds hc).1, hsent,
    ((draft_accepted .standard 7 [] (by simp)).2 _ _ _ _ none _ rfl rfl hproper _ hsent _
      rfl).2⟩

end Client

end TagRetention
