import TagRetention.Proofs.Client.Draft
import TagRetention.Proofs.Client.Session

/-!
The local copy of an orchestrator in a session. It is what is stored for the project, except after
an update that was stored but could not be loaded again.
-/

namespace TagRetention.Client.Session

open Orchestrator

/-- Whether there is an update that the client has not loaded again, after the step. -/
def behind (x : Session) (b : Bool) : Step → Bool
  | .load => b && !(x.call load).1.isOk
  | .mutate m =>
    match (x.call (mutate m)).1 with
    | .ok _ => b && !x.writes m
    | .error (.refresh _) => x.client.saved.isSome
    | .error _ => b
  | _ => b

def behindAfter (x : Session) (b : Bool) : List Step → Bool
  | [] => b
  | st :: steps => (x.step st).behindAfter (x.behind b st) steps

/-- The mutation leaves its own effect on the given policy, stored for the project. -/
def Leaves (x : Session) (m : Mutation) (p : Policy) : Prop :=
  ∃ id, (x.call (mutate m)).2.service.projects.get? x.client.project = some id ∧
    (x.call (mutate m)).2.service.policies.get? id = some ((m.effect.apply p).withId id)

/-- What the client knows of the project's policy. Its copy is what is stored unless it is behind. -/
inductive Tracks (b : Bool) (x : Session) : Prop where
  | unsaved (hsaved : x.client.saved = none)
    (hcopy : x.client.policy = .forProject x.client.project)
    (hproject : x.service.projects.get? x.client.project = none)
  | saved {id : PolicyId} {p : Policy} (hsaved : x.client.saved = some id)
    (hproject : x.service.projects.get? x.client.project = some id)
    (hstored : x.service.policies.get? id = some p)
    (hcopy : b = false → x.client.policy = p.withId id)

variable {x y : Session} {b : Bool} {m : Mutation}

theorem Tracks.of_false (h : Tracks false x) (b : Bool) : Tracks b x := by
  cases h with
  | unsaved hsaved hcopy hproject => exact .unsaved hsaved hcopy hproject
  | saved hsaved hproject hstored hcopy =>
    exact .saved hsaved hproject hstored fun _ => hcopy rfl

theorem Tracks.congr (h : Tracks b x) (hproject : y.client.project = x.client.project)
    (hsaved : y.client.saved = x.client.saved) (hcopy : y.client.policy = x.client.policy)
    (hsame : x.service.SamePolicies y.service) : Tracks b y := by
  cases h with
  | unsaved hs hc hp =>
    refine .unsaved (hsaved.trans hs) ?_ ?_
    · rw [hcopy, hproject, hc]
    · rw [hproject, hsame.projects, hp]
  | saved hs hp hst hc =>
    refine .saved (hsaved.trans hs) ?_ ?_ fun hb => hcopy.trans (hc hb)
    · rw [hproject, hsame.projects, hp]
    · rw [hsame.policies, hst]

theorem Tracks.saved_eq (h : Tracks b x) :
    x.client.saved = x.service.projects.get? x.client.project := by
  cases h with
  | unsaved hsaved _ hproject => rw [hsaved, hproject]
  | saved hsaved hproject _ _ => rw [hsaved, hproject]

theorem Tracks.copy_eq (h : Tracks false x) (edit : Edit) (id : PolicyId) :
    (edit.apply x.client.policy).withId id =
      (edit.apply (x.service.current x.client.project)).withId id := by
  cases h with
  | unsaved hsaved hcopy hproject =>
    rw [hcopy, LocalService.current, hproject, Option.bind_none, Option.getD_none]
  | @saved id' p hsaved hproject hstored hcopy =>
    rw [hcopy rfl, LocalService.current, hproject, Option.bind_some, hstored, Option.getD_some]
    have hid : edit.apply (p.withId id') = { edit.apply p with id := some id' } :=
      Mutation.apply_withId p (some id') edit
    rw [hid]
    rfl

theorem Tracks.stored (h : Tracks b x) {edit : Edit} {id : PolicyId} {w : LocalService}
    (hw : x.service.Stored x.client.saved (edit.apply x.client.policy) id w) :
    w.projects.get? x.client.project = some id ∧
      w.policies.get? id = some ((edit.apply x.client.policy).withId id) := by
  have hpolicy : w.policies.get? id = some ((edit.apply x.client.policy).withId id) := by
    rw [hw.policies, Table.get?_insert, if_pos rfl]
  refine ⟨?_, hpolicy⟩
  cases h with
  | unsaved hsaved hcopy hproject =>
    have hscope : (edit.apply x.client.policy).scope.reference = x.client.project := by
      rw [Edit.scope_apply, hcopy]
      rfl
    have hprojects := hw.projects
    rw [hsaved, Option.isSome_none, if_neg Bool.false_ne_true, hscope] at hprojects
    rw [hprojects, Table.get?_insert, if_pos rfl]
  | saved hsaved hproject _ _ =>
    have hid := hw.id_eq
    have hprojects := hw.projects
    rw [hsaved, Option.getD_some] at hid
    rw [hsaved, Option.isSome_some, if_pos rfl] at hprojects
    rw [hprojects, hproject, hid]

theorem behind_of_ok (hok : (x.call (mutate m)).1 = .ok ()) :
    x.behind b (.mutate m) = (b && !x.writes m) := by
  simp only [behind, hok]

theorem behind_of_refresh {f : ServiceFault}
    (herr : (x.call (mutate m)).1 = .error (.refresh f)) :
    x.behind b (.mutate m) = x.client.saved.isSome := by
  simp only [behind, herr]

theorem behind_of_error {f : MutationFault} (herr : (x.call (mutate m)).1 = .error f)
    (hf : ∀ e, f ≠ .refresh e) : x.behind b (.mutate m) = b := by
  simp only [behind, herr]

theorem exists_edit_of_writes (h : x.writes m = true) :
    ∃ edit, m.plan x.client.policy x.client.catalog = .ok (some edit) := by
  obtain ⟨q, hq, hd⟩ := List.any_eq_true.1 h
  obtain ⟨d, hd⟩ := Option.isSome_iff_exists.1 hd
  obtain ⟨edit, hplan, -⟩ := document_of_mutate LocalService.service m x.client x.service hq hd
  exact ⟨edit, hplan⟩

theorem reported_service_ne_refresh (m : Mutation) (f e : ServiceFault) :
    m.reported (.service f) ≠ .refresh e := by
  unfold Mutation.reported
  split <;> nofun

theorem Tracks.adopt (h : Tracks b x) {edit : Edit} {id : PolicyId} {p : Policy}
    {w w' : LocalService}
    (hw : x.service.Stored x.client.saved (edit.apply x.client.policy) id w)
    (hread : LocalService.service (.getPolicy id) w = (.ok p, w')) (hy : y.service = w')
    (hproject : y.client.project = x.client.project) (hsaved : y.client.saved = some id)
    (hcopy : y.client.policy = p.withId id) : Tracks false y := by
  obtain ⟨hp, hsame⟩ := LocalService.getPolicy_ok hread
  refine .saved hsaved ?_ ?_ fun _ => hcopy
  · rw [hy, hproject, hsame.projects, (h.stored hw).1]
  · rw [hy, hsame.policies, hp]

/-- A policy that could not be loaded again after its write: the client knows it if it made it. -/
theorem Tracks.noted (h : Tracks b x) {edit : Edit} {id : PolicyId} {w w' : LocalService}
    (hw : x.service.Stored x.client.saved (edit.apply x.client.policy) id w)
    (hsame : w.SamePolicies w') :
    Tracks x.client.saved.isSome ⟨x.client.noted id (edit.apply x.client.policy), w'⟩ := by
  obtain ⟨hproject, hstored⟩ := h.stored hw
  rw [← hsame.projects] at hproject
  rw [← hsame.policies] at hstored
  unfold Orchestrator.noted
  cases hsaved : x.client.saved with
  | none => exact .saved rfl hproject hstored fun _ => rfl
  | some id' =>
    have hid : id = id' := by rw [hw.id_eq, hsaved, Option.getD_some]
    subst hid
    exact .saved hsaved hproject hstored nofun

theorem Tracks.mutate (h : Tracks b x) (m : Mutation) :
    Tracks (x.behind b (.mutate m)) (x.call (mutate m)).2 := by
  have hend := mutate_end LocalService.service m x.client x.service
  generalize hrun : (Orchestrator.mutate m).run LocalService.service x.client x.service = r at hend
  have hcall : x.call (Orchestrator.mutate m) = (r.1, ⟨r.2.1, r.2.2⟩) := by
    simp only [call, hrun]
  cases hend with
  | busy =>
    rw [behind_of_error (congrArg Prod.fst hcall) nofun, hcall]
    exact h
  | @refuse f hplan =>
    have hf : ∀ e, f ≠ .refresh e := by
      rintro e rfl
      exact m.plan_ne_refresh _ _ e hplan
    rw [behind_of_error (congrArg Prod.fst hcall) hf, hcall]
    exact h.congr rfl rfl rfl (.refl _)
  | keep hplan =>
    -- nothing is written, so the client is as far behind as it was
    have hwrites : x.writes m = false := by
      rw [← Bool.not_eq_true]
      intro hw
      obtain ⟨edit, hedit⟩ := exists_edit_of_writes hw
      rw [hplan] at hedit
      cases hedit
    rw [behind_of_ok (congrArg Prod.fst hcall), hwrites, Bool.not_false, Bool.and_true, hcall]
    exact h.congr rfl rfl rfl (.refl _)
  | reject hplan hw =>
    rw [behind_of_error (congrArg Prod.fst hcall) (reported_service_ne_refresh m _), hcall]
    exact h.congr rfl rfl rfl (LocalService.write_error hw)
  | unseen hplan hw hread =>
    rw [behind_of_refresh (congrArg Prod.fst hcall), hcall]
    exact (h.noted (LocalService.write_ok hw) (LocalService.samePolicies_of_error hread)).congr
      rfl rfl rfl (.refl _)
  | done hplan hw hread =>
    -- the copy is what was loaded after the write, whatever it was made from
    rw [hcall]
    refine Tracks.of_false (h.adopt (LocalService.write_ok hw) hread rfl ?_ ?_ ?_) _
    all_goals cases m <;> rfl

/-- A load that succeeds brings the copy up to date, whatever the client knew before. -/
theorem tracks_of_load (hok : (x.call load).1.isOk = true) : Tracks false (x.call load).2 := by
  have hend := load_end LocalService.service x.client x.service
  unfold call at hok ⊢
  generalize load.run LocalService.service x.client x.service = r at hend hok
  cases hend with
  | lost hfind => cases hok
  | absent hfind =>
    obtain ⟨hnone, hsame⟩ := LocalService.projectRetention_ok hfind
    exact .unsaved rfl rfl (hsame.projects ▸ hnone.symm)
  | unread hfind hread => cases hok
  | done hfind hread =>
    obtain ⟨hsome, hfound⟩ := LocalService.projectRetention_ok hfind
    obtain ⟨hp, hsame⟩ := LocalService.getPolicy_ok hread
    exact .saved rfl (hsame.projects ▸ hfound.projects ▸ hsome.symm) (hsame.policies ▸ hp)
      fun _ => rfl

theorem Tracks.load (h : Tracks b x) : Tracks (x.behind b .load) (x.step .load) := by
  unfold behind
  cases hok : (x.call Orchestrator.load).1.isOk with
  | true =>
    rw [Bool.not_true, Bool.and_false]
    exact tracks_of_load hok
  | false =>
    rw [Bool.not_false, Bool.and_true]
    have hend := load_end LocalService.service x.client x.service
    unfold call at hok
    unfold step call
    generalize Orchestrator.load.run LocalService.service x.client x.service = r at hend hok
    cases hend with
    | lost hfind => exact h.congr rfl rfl rfl (LocalService.samePolicies_of_error hfind)
    | absent hfind => cases hok
    | unread hfind hread =>
      have hfound := (LocalService.projectRetention_ok hfind).2
      exact h.congr rfl rfl rfl (hfound.trans (LocalService.samePolicies_of_error hread))
    | done hfind hread => cases hok

theorem Tracks.loadCatalog (h : Tracks b x) : Tracks b (x.step .loadCatalog) := by
  rcases hread : LocalService.service .ruleCatalog x.service with ⟨f | m, w⟩
  · have hstep : x.step .loadCatalog = ⟨x.client, w⟩ := by
      simp only [step, call, Orchestrator.loadCatalog, Call.request, Call.run, hread]
    rw [hstep]
    exact h.congr rfl rfl rfl (LocalService.samePolicies_of_error hread)
  · have hstep : x.step .loadCatalog = ⟨{ x.client with catalog := m }, w⟩ := by
      simp only [step, call, Orchestrator.loadCatalog, Call.request, Call.run, hread]
      rfl
    rw [hstep]
    exact h.congr rfl rfl rfl (LocalService.ruleCatalog_ok hread)

theorem Tracks.step (h : Tracks b x) (st : Step) : Tracks (x.behind b st) (x.step st) := by
  cases st with
  | load => exact h.load
  | loadCatalog => exact h.loadCatalog
  | mutate m => exact h.mutate m
  | editSchedule editing => exact h.congr rfl rfl rfl (.refl _)
  | disturb rejectWrites failReads faults => exact h.congr rfl rfl rfl ⟨rfl, rfl, rfl⟩

theorem Tracks.after (h : Tracks b x) (steps : List Step) :
    Tracks (x.behindAfter b steps) (x.after steps) := by
  induction steps generalizing x b with
  | nil => exact h
  | cons st steps ih => exact ih (h.step st)

theorem Tracks.leaves (h : Tracks b x) (hok : (x.call (Orchestrator.mutate m)).1 = .ok ())
    (hwrites : x.writes m = true) : x.Leaves m x.client.policy := by
  obtain ⟨edit, hedit⟩ := exists_edit_of_writes hwrites
  have hend := mutate_end LocalService.service m x.client x.service
  unfold Leaves
  unfold call at hok ⊢
  generalize (Orchestrator.mutate m).run LocalService.service x.client x.service = r at hend hok
  cases hend with
  | busy => cases hok
  | refuse hplan => cases hok
  | keep hplan =>
    rw [hplan] at hedit
    cases hedit
  | reject hplan hw => cases hok
  | unseen hplan hw hread => cases hok
  | @done edit id p w w' hplan hw hread =>
    obtain ⟨hproject, hstored⟩ := h.stored (LocalService.write_ok hw)
    obtain ⟨-, hsame⟩ := LocalService.getPolicy_ok hread
    rw [Mutation.eq_effect_of_plan hplan] at hstored
    refine ⟨id, ?_, ?_⟩
    · rw [hsame.projects, hproject]
    · rw [hsame.policies, hstored]

theorem Tracks.leaves_current (h : Tracks false x) (hleaves : x.Leaves m x.client.policy) :
    x.Leaves m (x.service.current x.client.project) := by
  obtain ⟨id, hproject, hstored⟩ := hleaves
  exact ⟨id, hproject, h.copy_eq m.effect id ▸ hstored⟩

/-- After a load, every write that succeeds leaves its own effect on the local copy. That copy is
what was stored unless an update has since been stored that could not be loaded again. -/
theorem write_kept (x : Session) (steps : List Step) (m : Mutation)
    (hload : (x.call Orchestrator.load).1.isOk = true) :
    let y := (x.step .load).after steps
    (y.call (Orchestrator.mutate m)).1 = .ok () → y.writes m = true →
      y.Leaves m y.client.policy ∧
        ((x.step .load).behindAfter false steps = false →
          y.Leaves m (y.service.current y.client.project)) := by
  intro y hok hwrites
  have htracks : Tracks ((x.step .load).behindAfter false steps) y :=
    (tracks_of_load hload).after steps
  have hleaves := htracks.leaves hok hwrites
  refine ⟨hleaves, fun hbehind => ?_⟩
  rw [hbehind] at htracks
  exact htracks.leaves_current hleaves

def new (project : ProjectId) : Session := ⟨.new project, .empty⟩

def Step.failReads (failing : Bool) : Step := .disturb none failing []

/-- The first rule creates the policy, but the policy cannot be loaded after it. -/
def creationUnseen : List Step :=
  [.loadCatalog, .failReads true, .mutate (.addRule (.keepAlways "library/*")), .failReads false]

/-- The rule is disabled, but the policy cannot be loaded after it. -/
def updateUnseen : List Step :=
  [.loadCatalog, .mutate (.addRule (.keepAlways "library/*")), .failReads true,
    .mutate (.toggleRule 0 true), .failReads false]

theorem write_kept_of_creation_unseen :
    let y := ((new 1).step .load).after creationUnseen
    let m := Mutation.addRule (.keepAlways "team/*")
    ((new 1).call Orchestrator.load).1.isOk = true ∧
      (y.call (Orchestrator.mutate m)).1 = .ok () ∧ y.writes m = true ∧
      ((new 1).step .load).behindAfter false creationUnseen = false ∧
      y.Leaves m (y.service.current y.client.project) := by
  intro y m
  have hload : ((new 1).call Orchestrator.load).1.isOk = true := by decide +kernel
  have hok : (y.call (Orchestrator.mutate m)).1 = .ok () := by decide +kernel
  have hwrites : y.writes m = true := by decide +kernel
  have hbehind : ((new 1).step .load).behindAfter false creationUnseen = false := by
    decide +kernel
  exact ⟨hload, hok, hwrites, hbehind,
    (write_kept (new 1) creationUnseen m hload hok hwrites).2 hbehind⟩

/-- The next write enables the rule again: it is made from a copy without the update. -/
theorem update_unseen_undone :
    let y := ((new 1).step .load).after updateUnseen
    let m := Mutation.addRule (.keepAlways "team/*")
    ((new 1).call Orchestrator.load).1.isOk = true ∧
      (y.call (Orchestrator.mutate m)).1 = .ok () ∧ y.writes m = true ∧
      (y.service.current y.client.project).rules.map (·.disabled) = [true] ∧
      ((y.call (Orchestrator.mutate m)).2.service.current y.client.project).rules.map
        (·.disabled) = [false, false] ∧
      ¬ y.Leaves m (y.service.current y.client.project) := by
  intro y m
  refine ⟨by decide +kernel, by decide +kernel, by decide +kernel, by decide +kernel,
    by decide +kernel, ?_⟩
  rintro ⟨id, hproject, hstored⟩
  have hid : (y.call (Orchestrator.mutate m)).2.service.projects.get? y.client.project = some 1 := by
    decide +kernel
  rw [hid] at hproject
  cases hproject
  have hdisabled := congrArg (Option.map fun p => p.rules.map (·.disabled)) hstored
  revert hdisabled
  decide +kernel

end TagRetention.Client.Session
