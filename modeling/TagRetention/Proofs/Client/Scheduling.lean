import TagRetention.Proofs.Client.OnePolicy

/-!
Schedules of policies without rules. A policy that loses its last rule loses its schedule, but a
schedule can be set while there are no rules. It then stays until the policy gets rules or another
schedule.
-/

namespace TagRetention

namespace Policy

/-- The policy is scheduled although it has no rules. -/
def Stray (p : Policy) : Prop :=
  p.rules = [] ∧ p.trigger.cron ≠ ""

instance (p : Policy) : Decidable p.Stray :=
  decidable_of_iff (p.rules.isEmpty = true ∧ p.trigger.cron ≠ "") (by rw [List.isEmpty_iff, Stray])

/-- The policies differ in their ids or scopes at most. -/
def SameContent (p q : Policy) : Prop :=
  p.rules = q.rules ∧ p.trigger = q.trigger

theorem SameContent.refl (p : Policy) : p.SameContent p := ⟨rfl, rfl⟩

theorem SameContent.stray {p q : Policy} (h : p.SameContent q) (hp : p.Stray) :
    q.Stray ∧ q.trigger.cron = p.trigger.cron := by
  obtain ⟨hrules, htrigger⟩ := h
  rw [Stray, ← hrules, ← htrigger]
  exact ⟨hp, rfl⟩

end Policy

namespace Client

/-- A mutation that makes a stray policy has set its schedule, and there were no rules before. -/
theorem Mutation.stray_of_plan {m : Mutation} {p : Policy} {c : Catalog} {edit : Edit}
    (h : m.plan p c = .ok (some edit)) (hstray : (edit.apply p).Stray) :
    m = .setTrigger (edit.apply p).trigger.cron ∧ p.rules = [] := by
  obtain ⟨hempty, hcron⟩ := hstray
  obtain ⟨-, -, -, hamends⟩ := amends_of_plan h
  cases m with
  | setTrigger cron =>
    obtain ⟨hrules, rfl⟩ := hamends
    exact ⟨rfl, hrules.symm.trans hempty⟩
  | addRule r =>
    rw [hempty] at hamends
    exact absurd hamends.1.symm (List.append_ne_nil_of_right_ne_nil _ (List.cons_ne_nil _ _))
  | editRule i r | toggleRule i disabled =>
    obtain ⟨⟨before, old, after, -, -, hrules⟩, -⟩ := hamends
    rw [hempty] at hrules
    exact absurd hrules.symm (List.append_ne_nil_of_right_ne_nil _ (List.cons_ne_nil _ _))
  | deleteRule i =>
    obtain ⟨-, hcleared⟩ := hamends
    rw [hempty] at hcleared
    exact absurd hcleared hcron

namespace Session

open Orchestrator

/-- What is stored for the client's project. -/
def stored (x : Session) : Policy :=
  x.service.current x.client.project

/-- What a step makes of the stored policy and of the local copy: both stay or the copy is loaded,
or an edit of the copy is stored, seen or not. -/
inductive Exchange (x y : Session) : Step → Prop where
  | keep (st : Step) (hstored : y.stored.SameContent x.stored)
    (hcopy : y.client.policy = x.client.policy ∨ y.client.policy.SameContent x.stored) :
    Exchange x y st
  | write {m : Mutation} {edit : Edit}
    (hplan : m.plan x.client.policy x.client.catalog = .ok (some edit))
    (hstored : y.stored.SameContent (edit.apply x.client.policy))
    (hcopy : y.client.policy = x.client.policy ∨
      y.client.policy.SameContent (edit.apply x.client.policy)) :
    Exchange x y (.mutate m)

variable {x y : Session} {b : Bool} {m : Mutation} {st : Step}

theorem stored_congr (hproject : y.client.project = x.client.project)
    (hsame : x.service.SamePolicies y.service) : y.stored = x.stored := by
  rw [stored, stored, LocalService.current, LocalService.current, hproject, hsame.projects,
    hsame.policies]

theorem Exchange.of_same (hproject : y.client.project = x.client.project)
    (hcopy : y.client.policy = x.client.policy) (hsame : x.service.SamePolicies y.service) :
    Exchange x y st :=
  .keep st (stored_congr hproject hsame ▸ .refl _) (.inl hcopy)

/-- After a load that succeeds the copy is what is stored. -/
theorem Tracks.sameContent (h : Tracks false x) : x.client.policy.SameContent x.stored := by
  unfold Session.stored LocalService.current
  cases h with
  | unsaved hsaved hcopy hproject =>
    rw [hproject, hcopy]
    exact .refl _
  | saved hsaved hproject hstored hcopy =>
    rw [hproject, Option.bind_some, hstored, hcopy rfl]
    exact ⟨rfl, rfl⟩

theorem Tracks.exchange_of_load (h : Tracks false y) (hproject : y.client.project = x.client.project)
    (hsame : x.service.SamePolicies y.service) : Exchange x y .load := by
  have hstored := stored_congr hproject hsame
  exact .keep _ (hstored ▸ .refl _) (.inr (hstored ▸ h.sameContent))

theorem exchange_load (x : Session) : Exchange x (x.step .load) .load := by
  have hend := load_end LocalService.service x.client x.service
  have htracks : (x.call load).1.isOk = true → Tracks false (x.call load).2 := tracks_of_load
  unfold step
  unfold call at htracks ⊢
  generalize load.run LocalService.service x.client x.service = r at hend htracks ⊢
  cases hend with
  | lost hfind => exact .of_same rfl rfl (LocalService.samePolicies_of_error hfind)
  | absent hfind =>
    exact (htracks rfl).exchange_of_load rfl (LocalService.projectRetention_ok hfind).2
  | unread hfind hread =>
    have hfound := (LocalService.projectRetention_ok hfind).2
    exact .of_same rfl rfl (hfound.trans (LocalService.samePolicies_of_error hread))
  | done hfind hread =>
    have hfound := (LocalService.projectRetention_ok hfind).2
    exact (htracks rfl).exchange_of_load rfl (hfound.trans (LocalService.getPolicy_ok hread).2)

theorem exchange_loadCatalog (x : Session) : Exchange x (x.step .loadCatalog) .loadCatalog := by
  rw [step, call]
  simp only [loadCatalog, Call.request, Call.run]
  rcases hread : LocalService.service .ruleCatalog x.service with ⟨f | m, w⟩
  · exact .of_same rfl rfl (LocalService.samePolicies_of_error hread)
  · exact .of_same rfl rfl (LocalService.ruleCatalog_ok hread)

/-- The draft that was written is what is stored for the project. -/
theorem Tracks.stored_of_write (h : Tracks b x) {edit : Edit} {id : PolicyId} {w : LocalService}
    (hw : write LocalService.service x.client.saved (edit.apply x.client.policy) x.service =
      (.ok id, w)) (hproject : y.client.project = x.client.project)
    (hsame : w.SamePolicies y.service) :
    y.stored.SameContent (edit.apply x.client.policy) := by
  obtain ⟨hfound, hpolicy⟩ := h.stored (LocalService.write_ok hw)
  rw [Session.stored, LocalService.current, hproject, hsame.projects, hfound, Option.bind_some,
    hsame.policies, hpolicy]
  exact ⟨rfl, rfl⟩

theorem copy_noted (id : PolicyId) (draft : Policy) (o : Orchestrator) :
    (o.noted id draft).policy = o.policy ∨ (o.noted id draft).policy.SameContent draft := by
  unfold noted
  cases o.saved with
  | none => exact .inr ⟨rfl, rfl⟩
  | some id' => exact .inl rfl

theorem Tracks.exchange_mutate (h : Tracks b x) (m : Mutation) :
    Exchange x (x.step (.mutate m)) (.mutate m) := by
  have hend := mutate_end LocalService.service m x.client x.service
  rw [Session.step, call]
  generalize (Orchestrator.mutate m).run LocalService.service x.client x.service = r at hend ⊢
  cases hend with
  | busy | refuse | keep => exact .of_same rfl rfl (.refl _)
  | reject hplan hw => exact .of_same rfl rfl (LocalService.write_error hw)
  | @unseen edit id f w w' hplan hw hread =>
    exact .write hplan (h.stored_of_write hw (project_noted _ _ x.client)
      (LocalService.samePolicies_of_error hread)) (copy_noted _ _ x.client)
  | @done edit id p w w' hplan hw hread =>
    obtain ⟨hp, hsame⟩ := LocalService.getPolicy_ok hread
    obtain ⟨-, hpolicy⟩ := h.stored (LocalService.write_ok hw)
    rw [hp] at hpolicy
    obtain rfl := Option.some.inj hpolicy
    refine .write hplan (h.stored_of_write hw ?_ hsame) (.inr ?_)
    · cases m <;> rfl
    · cases m <;> exact ⟨rfl, rfl⟩

theorem Tracks.exchange (h : Tracks b x) (st : Step) : Exchange x (x.step st) st := by
  cases st with
  | load => exact exchange_load x
  | loadCatalog => exact exchange_loadCatalog x
  | mutate m => exact h.exchange_mutate m
  | editSchedule editing => exact .of_same rfl rfl (.refl _)
  | disturb rejectWrites failReads faults => exact .of_same rfl rfl ⟨rfl, rfl, rfl⟩

/-- The schedule was set while the local copy had no rules, and the copy has had none since. -/
def SetWithoutRules (x : Session) (steps : List Step) (cron : String) : Prop :=
  ∃ before rest, steps = before ++ .mutate (.setTrigger cron) :: rest ∧
    ∀ past, past <+: .mutate (.setTrigger cron) :: rest →
      ((x.after before).after past).client.policy.rules = []

variable {steps : List Step} {cron : String}

theorem after_append (x : Session) (steps rest : List Step) :
    x.after (steps ++ rest) = (x.after steps).after rest :=
  List.foldl_append

theorem SetWithoutRules.concat (h : x.SetWithoutRules steps cron)
    (hrules : (x.after (steps ++ [st])).client.policy.rules = []) :
    x.SetWithoutRules (steps ++ [st]) cron := by
  obtain ⟨before, rest, rfl, hsince⟩ := h
  refine ⟨before, rest ++ [st], by simp, fun past hpast => ?_⟩
  rw [← List.cons_append, List.prefix_concat_iff] at hpast
  rcases hpast with rfl | hpast
  · rwa [List.append_assoc, after_append] at hrules
  · exact hsince past hpast

theorem setWithoutRules_concat (hm : m = .setTrigger cron)
    (hbefore : (x.after steps).client.policy.rules = [])
    (hrules : (x.after (steps ++ [.mutate m])).client.policy.rules = []) :
    x.SetWithoutRules (steps ++ [.mutate m]) cron := by
  subst hm
  refine ⟨steps, [], rfl, fun past hpast => ?_⟩
  rw [← List.nil_append [_], List.prefix_concat_iff, List.prefix_nil] at hpast
  rcases hpast with rfl | rfl
  · rwa [List.nil_append, ← after_append]
  · exact hbefore

/-- Wherever there is a stray schedule, stored or in the local copy, it was set on a copy without
rules. -/
def StraySet (x : Session) (steps : List Step) : Prop :=
  ∀ p, p = (x.after steps).client.policy ∨ p = (x.after steps).stored → p.Stray →
    (x.after steps).client.policy.rules = [] ∧ x.SetWithoutRules steps p.trigger.cron

theorem StraySet.concat (h : x.StraySet steps)
    (hstep : Exchange (x.after steps) (x.after (steps ++ [st])) st) :
    x.StraySet (steps ++ [st]) := by
  intro p hp hstray
  cases hstep with
  | keep _ hstored hcopy =>
    -- the stray policy was there before the step, in one of the two places
    obtain ⟨q, hq, hqstray, hcron⟩ : ∃ q, (q = (x.after steps).client.policy ∨
        q = (x.after steps).stored) ∧ q.Stray ∧ q.trigger.cron = p.trigger.cron := by
      rcases hp with rfl | rfl
      · rcases hcopy with hcopy | hcopy
        · exact ⟨_, .inl rfl, hcopy ▸ hstray, by rw [hcopy]⟩
        · exact ⟨_, .inr rfl, hcopy.stray hstray⟩
      · exact ⟨_, .inr rfl, hstored.stray hstray⟩
    obtain ⟨hrules, hset⟩ := h q hq hqstray
    have hrules' : (x.after (steps ++ [st])).client.policy.rules = [] := by
      rcases hp with rfl | rfl
      · exact hstray.1
      · rcases hcopy with hcopy | hcopy
        · rw [hcopy, hrules]
        · rw [hcopy.1, ← hstored.1, hstray.1]
    exact ⟨hrules', hcron ▸ hset.concat hrules'⟩
  | @write m edit hplan hstored hcopy =>
    have hmade {q : Policy} (hq : q.Stray)
        (hsame : q.SameContent (edit.apply (x.after steps).client.policy)) :
        m = .setTrigger q.trigger.cron ∧ (x.after steps).client.policy.rules = [] := by
      obtain ⟨hdraft, hcron⟩ := hsame.stray hq
      exact hcron ▸ Mutation.stray_of_plan hplan hdraft
    rcases hp with rfl | rfl
    · rcases hcopy with hcopy | hcopy
      · -- the copy is as it was: what was written has not been seen
        rw [hcopy] at hstray ⊢
        obtain ⟨hrules, hset⟩ := h _ (.inl rfl) hstray
        exact ⟨hrules, hset.concat (hcopy ▸ hrules)⟩
      · obtain ⟨hm, hrules⟩ := hmade hstray hcopy
        exact ⟨hstray.1, setWithoutRules_concat hm hrules hstray.1⟩
    · obtain ⟨hm, hrules⟩ := hmade hstray hstored
      have hrules' : (x.after (steps ++ [.mutate m])).client.policy.rules = [] := by
        rcases hcopy with hcopy | hcopy
        · rw [hcopy, hrules]
        · rw [hcopy.1, ← hstored.1, hstray.1]
      exact ⟨hrules', setWithoutRules_concat hm hrules hrules'⟩

theorem Tracks.straySet (h : Tracks false x) (hplain : ¬ x.client.policy.Stray)
    (steps : List Step) : x.StraySet steps := by
  induction steps using List.reverseRecOn with
  | nil =>
    rintro p (rfl | rfl) hstray
    · exact absurd hstray hplain
    · have hcopy := h.sameContent
      exact absurd (Policy.SameContent.stray ⟨hcopy.1.symm, hcopy.2.symm⟩ hstray).1 hplain
  | append_singleton steps st ih =>
    apply ih.concat
    rw [after_append]
    exact (h.after steps).exchange st

/-- For a project without a policy, in any session and whatever fails in between: a policy without
rules, stored or local, is scheduled only by a trigger that was set while the local copy had no
rules, and the copy has had none since. -/
theorem stray_schedule_was_set (project : ProjectId) (w : LocalService)
    (hfresh : w.projects.get? project = none) (steps : List Step) :
    let x : Session := ⟨.new project, w⟩
    ∀ p, p = (x.after steps).client.policy ∨ p = (x.after steps).stored →
      p.rules = [] → p.trigger.cron = "" ∨ x.SetWithoutRules steps p.trigger.cron := by
  intro x p hp hempty
  have hnew : Tracks false x := .unsaved rfl rfl hfresh
  have hset : x.StraySet steps := hnew.straySet (fun hstray => hstray.2 rfl) steps
  by_cases hcron : p.trigger.cron = ""
  · exact .inl hcron
  · exact .inr (hset p hp ⟨hempty, hcron⟩).2

/-- A project without rules is given a schedule. -/
def scheduleFirst : List Step :=
  [.load, .mutate (.setTrigger dailyCron)]

/-- The service stores a policy that has no rules and is scheduled. -/
theorem schedule_first_stored :
    let x := (new 1).after scheduleFirst
    x.client.policy.rules = [] ∧ x.client.policy.trigger.cron = dailyCron ∧
      x.stored.rules = [] ∧ x.stored.trigger.cron = dailyCron ∧ dailyCron ≠ "" := by
  have hcopy : ((new 1).after scheduleFirst).client.policy.Stray := by decide +kernel
  have hstored : ((new 1).after scheduleFirst).stored.Stray := by decide +kernel
  exact ⟨hcopy.1, by decide +kernel, hstored.1, by decide +kernel, by decide⟩

theorem schedule_first_was_set :
    LocalService.empty.projects.get? 1 = none ∧
      (new 1).SetWithoutRules scheduleFirst dailyCron := by
  have hstray : ((new 1).after scheduleFirst).stored.Stray := by decide +kernel
  have hcron : ((new 1).after scheduleFirst).stored.trigger.cron = dailyCron := by decide +kernel
  refine ⟨rfl, ?_⟩
  rcases stray_schedule_was_set 1 .empty rfl scheduleFirst _ (.inr rfl) hstray.1 with hnone | hset
  · exact absurd hnone hstray.2
  · exact hcron ▸ hset

end Session

end Client

end TagRetention
