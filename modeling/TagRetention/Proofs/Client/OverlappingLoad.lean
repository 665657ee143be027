import TagRetention.Proofs.Client.LocalCopy
import TagRetention.Proofs.Client.Overlap

/-!
The local copy after a load and a mutation that overlapped. Both bring the copy up to what is
stored, but a load that was answered before the write and ends after the mutation takes it back to
what was stored before.
-/

namespace TagRetention.Client.Overlap

open Orchestrator

variable {α : Type}

/-- The reply on its way brings the copy to what the service has stored. -/
def Settles (project : ProjectId) (w : LocalService) (rest : Attempt α) : Prop :=
  ∀ o, o.project = project → ∃ a o', rest.pause o = (.ended (.ok a), o') ∧ o'.project = project ∧
    Session.Tracks false ⟨o', w⟩

/-- A call that is over with a fault or will be as soon as it goes on. -/
def Failed : Thread Orchestrator (Except MutationFault α) → Prop
  | .answered rest => Fails rest
  | .ended (.error _) => True
  | _ => False

/-- How far the load is. It has been settled `early` if the mutation had not written by then; the
service stored `before` at first. -/
inductive LoadAt (project : ProjectId) (before w : LocalService) (unwritten early : Bool) :
    Thread Orchestrator (Except MutationFault (Option PolicyId)) → Prop where
  | idle (hearly : early = false) :
    LoadAt project before w unwritten early (.idle Orchestrator.load)
  | finding (hearly : early = false) {next : (Request.projectRetention project).Reply → _}
    (hnext : Finds next) :
    LoadAt project before w unwritten early (.asks (.projectRetention project) next)
  | found (hearly : early = false) {id : PolicyId} {rest : Attempt (Option PolicyId)}
    (hid : w.projects.get? project = some id) (hrest : Reads id rest)
    (hquiet : ∀ o, (rest.pause o).2 = o) : LoadAt project before w unwritten early (.answered rest)
  | reading (hearly : early = false) {id : PolicyId} {next : (Request.getPolicy id).Reply → _}
    (hid : w.projects.get? project = some id) (hnext : Adopts id next) :
    LoadAt project before w unwritten early (.asks (.getPolicy id) next)
  | settled {rest : Attempt (Option PolicyId)} (hearly : unwritten = true → early = true)
    (hrest : Settles project (if early then before else w) rest) :
    LoadAt project before w unwritten early (.answered rest)
  | ended (r : Except MutationFault (Option PolicyId)) :
    LoadAt project before w unwritten early (.ended r)

/-- How far the mutation is. Nothing is stored before its write is answered. -/
inductive MutationAt (m : Mutation) (project : ProjectId) (before w : LocalService) :
    Thread Orchestrator (Except MutationFault Unit) → Prop where
  | idle (hsame : before.SamePolicies w) : MutationAt m project before w (.idle (mutate m))
  | creating {draft : Policy} {next : (Request.createPolicy draft).Reply → _}
    (hsame : before.SamePolicies w) (hnone : w.projects.get? project = none)
    (hscope : draft.scope.reference = project) (hnext : Notes id next) :
    MutationAt m project before w (.asks (.createPolicy draft) next)
  | updating {id : PolicyId} {draft : Policy} {next : (Request.updatePolicy id draft).Reply → _}
    (hsame : before.SamePolicies w) (hid : w.projects.get? project = some id)
    (hnext : Notes (fun _ => id) next) :
    MutationAt m project before w (.asks (.updatePolicy id draft) next)
  | written {id : PolicyId} {rest : Attempt Unit} (hid : w.projects.get? project = some id)
    (hrest : Reads id rest) : MutationAt m project before w (.answered rest)
  | reading {id : PolicyId} {next : (Request.getPolicy id).Reply → _}
    (hid : w.projects.get? project = some id) (hnext : Adopts id next) :
    MutationAt m project before w (.asks (.getPolicy id) next)
  | settled {rest : Attempt Unit} (hrest : Settles project w rest) :
    MutationAt m project before w (.answered rest)
  | ended (r : Except MutationFault Unit) : MutationAt m project before w (.ended r)

/-- What holds after every turn unless one of the calls has failed. -/
structure Inv (x : Session) (m : Mutation) (early late : Bool) (y : Overlap) : Prop where
  project : y.client.project = x.client.project
  load : LoadAt x.client.project x.service y.service y.mutation.isUnwritten early y.load
  mutation : MutationAt m x.client.project x.service y.service y.mutation
  begins : y.mutation.isIdle = true → Session.Tracks (!y.load.isEnded) y.toSession
  not_late : y.mutation.isEnded = false → late = false
  late_of_open : y.mutation.isEnded = true → y.load.isEnded = false → late = true
  copy : y.mutation.isEnded = true → y.load.isEnded = true →
    Session.Tracks false ⟨y.client, if early && late then x.service else y.service⟩

/-- What a turn leads to: one of the calls has failed, or everything holds and the moment that has
been reached is taken into account. -/
def Next (x : Session) (m : Mutation) (early late : Bool) (y : Overlap) : Prop :=
  Failed y.load ∨ Failed y.mutation ∨ Inv x m (early || y.early) (late || y.late) y

variable {project : ProjectId} {before w w' : LocalService} {unwritten early late : Bool}
  {o : Orchestrator} {m : Mutation} {x : Session} {y : Overlap} {id : PolicyId} {p : Policy}

theorem Settles.congr {rest : Attempt α} (h : Settles project w rest) (hsame : w.SamePolicies w') :
    Settles project w' rest := by
  intro o ho
  obtain ⟨a, o', hpause, hproject, htracks⟩ := h o ho
  exact ⟨a, o', hpause, hproject, htracks.congr rfl rfl rfl hsame⟩

theorem settles_of_adopts {next : Except ServiceFault Policy → Attempt α} (h : Adopts id next)
    (hid : w.projects.get? project = some id) (hp : w.policies.get? id = some p) :
    Settles project w (next (.ok p)) := by
  rintro o rfl
  obtain ⟨a, o', hpause, hproject, hsaved, hpolicy⟩ := h.ok p o
  exact ⟨a, o', hpause, hproject, .saved hsaved (hproject ▸ hid) hp fun _ => hpolicy⟩

theorem settles_of_none {next : Except ServiceFault (Option PolicyId) → Attempt α} (h : Finds next)
    (hnone : w.projects.get? project = none) : Settles project w (next (.ok none)) := by
  rintro o rfl
  obtain ⟨a, hpause⟩ := h.none o
  exact ⟨a, _, hpause, rfl, .unsaved rfl rfl hnone⟩

section Threads

variable {thread : Thread Orchestrator (Except MutationFault (Option PolicyId))}
  {writer : Thread Orchestrator (Except MutationFault Unit)}

theorem failed_step {thread : Thread Orchestrator (Except MutationFault α)} (h : Failed thread)
    (o : Orchestrator) (w : LocalService) :
    Failed (thread.step LocalService.service o w).1 := by
  cases thread with
  | idle c => cases h
  | asks q next => cases h
  | answered rest =>
    obtain ⟨f, hf⟩ := h o
    simp only [Thread.step, hf]
    exact trivial
  | ended r => exact h

theorem LoadAt.early_eq (h : LoadAt project before w unwritten early thread) (o : Orchestrator) :
    (early || thread.isSettled o && unwritten) = early := by
  cases h with
  | idle hearly | finding hearly | reading hearly => exact Bool.or_false early
  | ended => exact Bool.or_false early
  | found hearly hid hrest hquiet =>
    obtain ⟨abandon, next, o', hpause, -⟩ := hrest o
    simp only [Thread.isSettled, hpause]
    exact Bool.or_false early
  | settled hearly hrest =>
    cases unwritten with
    | false => rw [Bool.and_false, Bool.or_false]
    | true => rw [hearly rfl, Bool.true_or]

theorem LoadAt.mono {unwritten' : Bool} (h : LoadAt project before w unwritten early thread)
    (hunwritten : unwritten' = true → unwritten = true)
    (hid : ∀ id, w.projects.get? project = some id → w'.projects.get? project = some id)
    (hw : unwritten = true ∨ w.SamePolicies w') :
    LoadAt project before w' unwritten' early thread := by
  cases h with
  | idle hearly => exact .idle hearly
  | finding hearly hnext => exact .finding hearly hnext
  | found hearly hfound hrest hquiet => exact .found hearly (hid _ hfound) hrest hquiet
  | reading hearly hfound hnext => exact .reading hearly (hid _ hfound) hnext
  | settled hearly hrest =>
    refine .settled (fun h => hearly (hunwritten h)) ?_
    cases early with
    | true => exact hrest
    | false =>
      -- a load that was not settled early was settled after the write, so there is none to come
      rcases hw with hw | hsame
      · cases hearly hw
      · exact Settles.congr hrest hsame
  | ended r => exact .ended r

theorem LoadAt.congr {unwritten' : Bool} (h : LoadAt project before w unwritten early thread)
    (hunwritten : unwritten' = true → unwritten = true) (hsame : w.SamePolicies w') :
    LoadAt project before w' unwritten' early thread :=
  h.mono hunwritten (fun _ hid => hsame.projects ▸ hid) (.inr hsame)

theorem MutationAt.congr (h : MutationAt m project before w writer) (hsame : w.SamePolicies w') :
    MutationAt m project before w' writer := by
  have hprojects := hsame.projects
  cases h with
  | idle hbefore => exact .idle (hbefore.trans hsame)
  | creating hbefore hnone hscope hnext =>
    exact .creating (hbefore.trans hsame) (hprojects ▸ hnone) hscope hnext
  | updating hbefore hid hnext => exact .updating (hbefore.trans hsame) (hprojects ▸ hid) hnext
  | written hid hrest => exact .written (hprojects ▸ hid) hrest
  | reading hid hnext => exact .reading (hprojects ▸ hid) hnext
  | settled hrest => exact .settled (hrest.congr hsame)
  | ended r => exact .ended r

theorem MutationAt.same_of_unwritten (h : MutationAt m project before w writer)
    (hunwritten : writer.isUnwritten = true) : before.SamePolicies w := by
  cases h with
  | idle hsame | creating hsame | updating hsame => exact hsame
  | written | reading | settled | ended => cases hunwritten

theorem LoadAt.of_settles {rest : Attempt (Option PolicyId)}
    (h : MutationAt m project before w writer) (hrest : Settles project w rest) :
    LoadAt project before w writer.isUnwritten writer.isUnwritten (.answered rest) := by
  refine .settled id ?_
  cases hunwritten : writer.isUnwritten with
  | false => exact hrest
  | true =>
    have hsame := h.same_of_unwritten hunwritten
    exact hrest.congr ⟨hsame.policies.symm, hsame.projects.symm, hsame.lastId.symm⟩

end Threads

theorem Settles.isSettled {rest : Attempt α} (h : Settles project w rest)
    (ho : o.project = project) : (Thread.answered rest).isSettled o = true := by
  obtain ⟨a, o', hpause, -⟩ := h o ho
  simp only [Thread.isSettled, hpause]
  rfl

theorem Inv.next (h : Inv x m early late y) : Next x m early late y := by
  have hearly : (early || y.early) = early := h.load.early_eq y.client
  have hlate : (late || y.late) = late := by
    unfold Overlap.late
    cases hmutation : y.mutation.isEnded with
    | false => rw [Bool.false_and, Bool.or_false]
    | true =>
      cases hload : y.load.isEnded with
      | false => rw [h.late_of_open hmutation hload, Bool.true_or]
      | true => rw [Bool.not_true, Bool.and_false, Bool.or_false]
  rw [Next, hearly, hlate]
  exact .inr (.inr h)

section Load

variable {thread : Thread Orchestrator (Except MutationFault (Option PolicyId))}
  {rest : Attempt (Option PolicyId)}

theorem Inv.load_on {early' : Bool} (h : Inv x m early late y) (hopen : y.load.isEnded = false)
    (hstill : thread.isEnded = false) (ho : SameCopy y.client o) (hw : y.service.SamePolicies w)
    (hload : LoadAt x.client.project x.service w y.mutation.isUnwritten early' thread) :
    Inv x m early' late ⟨⟨o, w⟩, thread, y.mutation⟩ where
  project := ho.1.trans h.project
  load := hload
  mutation := h.mutation.congr hw
  begins hidle := by
    have htracks := h.begins hidle
    rw [hopen] at htracks
    rw [hstill]
    exact htracks.congr ho.1 ho.2.1 ho.2.2 hw
  not_late := h.not_late
  late_of_open hended _ := h.late_of_open hended hopen
  copy _ hover := by
    rw [hstill] at hover
    cases hover

theorem Inv.load_settled (h : Inv x m false late y) (hopen : y.load.isEnded = false)
    (hw : y.service.SamePolicies w) (hrest : Settles x.client.project w rest) :
    Next x m false late ⟨⟨y.client, w⟩, .answered rest, y.mutation⟩ := by
  have hinv := h.load_on hopen rfl ⟨rfl, rfl, rfl⟩ hw
    (LoadAt.of_settles (h.mutation.congr hw) hrest)
  have hearly : Overlap.early ⟨⟨y.client, w⟩, .answered rest, y.mutation⟩ =
      y.mutation.isUnwritten := by
    rw [Overlap.early, hrest.isSettled h.project, Bool.true_and]
  have hnext := hinv.next
  rw [Next, hearly, Bool.or_self] at hnext
  rwa [Next, hearly, Bool.false_or]

theorem Inv.load_over (h : Inv x m early late y) (hopen : y.load.isEnded = false)
    {r : Except MutationFault (Option PolicyId)} (hproject : o.project = x.client.project)
    (htracks : Session.Tracks false ⟨o, if early then x.service else y.service⟩) :
    Inv x m early late ⟨⟨o, y.service⟩, .ended r, y.mutation⟩ where
  project := hproject
  load := .ended r
  mutation := h.mutation
  begins hidle := by
    -- nothing has been written yet, so it does not matter when the load was answered
    have hsame := h.mutation.same_of_unwritten (Thread.isUnwritten_of_isIdle hidle)
    cases early with
    | true => exact htracks.congr rfl rfl rfl hsame
    | false => exact htracks
  not_late := h.not_late
  late_of_open _ h := by cases h
  copy hended _ := by
    rw [h.late_of_open hended hopen, Bool.and_true]
    exact htracks

theorem Inv.load_step (h : Inv x m early late y) : Next x m early late (y.step .load) := by
  obtain ⟨⟨o, w⟩, load, mutation⟩ := y
  have hproject : o.project = x.client.project := h.project
  have hload := h.load
  cases hload with
  | idle hearly =>
    obtain ⟨abandon, next, hpause, hnext⟩ := pause_load hproject
    simp only [step, Thread.step, hpause]
    have hfinding := h.load_on (o := o.setLoading true) rfl rfl ⟨rfl, rfl, rfl⟩ (.refl w)
      (.finding hearly hnext)
    exact hfinding.next
  | finding hearly hnext =>
    subst hearly
    rcases hfind : LocalService.service (.projectRetention x.client.project) w with ⟨f | found, w'⟩
    · simp only [step, Thread.step, hfind]
      exact .inl (hnext.error f)
    · obtain ⟨hfound, hsame⟩ := LocalService.projectRetention_ok hfind
      rw [← hsame.projects] at hfound
      simp only [step, Thread.step, hfind]
      cases found with
      | none => exact h.load_settled rfl hsame (settles_of_none hnext hfound.symm)
      | some id =>
        obtain ⟨hrest, hquiet⟩ := hnext.some id
        have hreads := h.load_on rfl rfl ⟨rfl, rfl, rfl⟩ hsame (.found rfl hfound.symm hrest hquiet)
        exact hreads.next
  | found hearly hid hrest hquiet =>
    obtain ⟨abandon, next, o', hpause, -, hnext⟩ := hrest o
    have ho : o' = o := by rw [← hquiet o, hpause]
    simp only [step, Thread.step, hpause]
    rw [ho]
    have hreading := h.load_on rfl rfl ⟨rfl, rfl, rfl⟩ (.refl w) (.reading hearly hid hnext)
    exact hreading.next
  | @reading hearly id next hid hnext =>
    subst hearly
    rcases hread : LocalService.service (.getPolicy id) w with ⟨f | p, w'⟩
    · simp only [step, Thread.step, hread]
      exact .inl (hnext.error f)
    · obtain ⟨hp, hsame⟩ := LocalService.getPolicy_ok hread
      have hsettles := (settles_of_adopts hnext hid hp).congr hsame
      simp only [step, Thread.step, hread]
      exact h.load_settled rfl hsame hsettles
  | settled hearly hrest =>
    obtain ⟨a, o', hpause, hproject', htracks⟩ := hrest o hproject
    simp only [step, Thread.step, hpause]
    exact (h.load_over rfl hproject' htracks).next
  | ended r => exact h.next

end Load

section Mutation

variable {thread : Thread Orchestrator (Except MutationFault Unit)}

theorem Inv.mutation_on (h : Inv x m early late y) (hopen : y.mutation.isEnded = false)
    (hbegun : thread.isIdle = false) (hstill : thread.isEnded = false)
    (ho : o.project = y.client.project)
    (hload : LoadAt x.client.project x.service w thread.isUnwritten early y.load)
    (hmutation : MutationAt m x.client.project x.service w thread) :
    Inv x m early late ⟨⟨o, w⟩, y.load, thread⟩ where
  project := ho.trans h.project
  load := hload
  mutation := hmutation
  begins hidle := by
    rw [hbegun] at hidle
    cases hidle
  not_late _ := h.not_late hopen
  late_of_open hended := by
    rw [hstill] at hended
    cases hended
  copy hended := by
    rw [hstill] at hended
    cases hended

theorem Inv.mutation_over (h : Inv x m early late y) (hopen : y.mutation.isEnded = false)
    {r : Except MutationFault Unit} (ho : o.project = x.client.project)
    (htracks : y.load.isEnded = true → Session.Tracks false ⟨o, y.service⟩) :
    Next x m early late ⟨⟨o, y.service⟩, y.load, .ended r⟩ := by
  have hload : LoadAt x.client.project x.service y.service false early y.load :=
    h.load.congr nofun (.refl _)
  have hearly : (early || Overlap.early ⟨⟨o, y.service⟩, y.load, .ended r⟩) = early :=
    hload.early_eq o
  have hlate : (late || Overlap.late ⟨⟨o, y.service⟩, y.load, .ended r⟩) = !y.load.isEnded := by
    rw [h.not_late hopen, Bool.false_or]
    rfl
  rw [Next, hearly, hlate]
  refine .inr (.inr ⟨ho, hload, .ended r, nofun, nofun, fun _ hload => ?_, fun _ hload => ?_⟩)
  · rw [show y.load.isEnded = false from hload]
    rfl
  · have hload : y.load.isEnded = true := hload
    rw [hload, Bool.not_true, Bool.and_false]
    exact htracks hload

variable {load : Thread Orchestrator (Except MutationFault (Option PolicyId))} {draft : Policy}

theorem Inv.begin_mutation (h : Inv x m early late ⟨⟨o, w⟩, load, .idle (mutate m)⟩)
    (hsame : x.service.SamePolicies w) :
    Next x m early late (step ⟨⟨o, w⟩, load, .idle (mutate m)⟩ .mutation) := by
  have hproject : o.project = x.client.project := h.project
  have htracks := h.begins rfl
  obtain ⟨hbegins, hcopy⟩ := begins_mutate m o
  simp only [step, Thread.step]
  generalize (mutate m).pause o = r at hbegins hcopy
  obtain ⟨stop, o'⟩ := r
  cases hbegins with
  | refused f => exact .inr (.inl trivial)
  | kept =>
    refine h.mutation_over rfl (hcopy.1.trans hproject) fun hload => ?_
    rw [show load.isEnded = true from hload] at htracks
    exact htracks.congr hcopy.1 hcopy.2.1 hcopy.2.2 (.refl w)
  | creates hsaved hscope hnext =>
    cases htracks with
    | saved hs => cases hsaved.symm.trans hs
    | unsaved hs hpolicy hnone =>
      have hreference : o.policy.scope.reference = x.client.project := by
        rw [← hproject]
        exact congrArg (·.scope.reference) hpolicy
      have hcreating := h.mutation_on rfl rfl rfl hcopy.1 (h.load.congr (fun _ => rfl) (.refl w))
        (.creating hsame (hproject ▸ hnone) (hscope ▸ hreference) hnext)
      exact hcreating.next
  | updates hsaved hnext =>
    have hid : w.projects.get? x.client.project = some _ :=
      hproject ▸ htracks.saved_eq.symm.trans hsaved
    have hupdating := h.mutation_on rfl rfl rfl hcopy.1 (h.load.congr (fun _ => rfl) (.refl w))
      (.updating hsame hid hnext)
    exact hupdating.next

theorem Inv.create {next : (Request.createPolicy draft).Reply → Attempt Unit}
    (h : Inv x m early late ⟨⟨o, w⟩, load, .asks (.createPolicy draft) next⟩)
    (hnone : w.projects.get? x.client.project = none)
    (hscope : draft.scope.reference = x.client.project) (hnext : Notes (fun id => id) next) :
    Next x m early late (step ⟨⟨o, w⟩, load, .asks (.createPolicy draft) next⟩ .mutation) := by
  rcases hwrite : LocalService.service (.createPolicy draft) w with ⟨f | id, w'⟩
  · simp only [step, Thread.step, hwrite]
    exact .inr (.inl (hnext.error f))
  · have hid : w'.projects.get? x.client.project = some id := by
      rw [(LocalService.createPolicy_ok hwrite).projects, hscope, Option.isSome_none,
        if_neg Bool.false_ne_true, Table.get?_insert, if_pos rfl]
    -- a load that has found a policy excludes that the mutation creates one
    have hload : LoadAt x.client.project x.service w' false early load :=
      h.load.mono nofun (fun _ hid => by cases hnone.symm.trans hid) (.inl rfl)
    simp only [step, Thread.step, hwrite]
    exact (h.mutation_on rfl rfl rfl rfl hload (.written hid (hnext.ok id))).next

theorem Inv.update {next : (Request.updatePolicy id draft).Reply → Attempt Unit}
    (h : Inv x m early late ⟨⟨o, w⟩, load, .asks (.updatePolicy id draft) next⟩)
    (hid : w.projects.get? x.client.project = some id) (hnext : Notes (fun _ => id) next) :
    Next x m early late (step ⟨⟨o, w⟩, load, .asks (.updatePolicy id draft) next⟩ .mutation) := by
  rcases hwrite : LocalService.service (.updatePolicy id draft) w with ⟨f | u, w'⟩
  · simp only [step, Thread.step, hwrite]
    exact .inr (.inl (hnext.error f))
  · have hprojects : w'.projects = w.projects := (LocalService.updatePolicy_ok hwrite).projects
    have hload : LoadAt x.client.project x.service w' false early load :=
      h.load.mono nofun (fun _ hid => hprojects ▸ hid) (.inl rfl)
    simp only [step, Thread.step, hwrite]
    exact (h.mutation_on rfl rfl rfl rfl hload (.written (hprojects ▸ hid) (hnext.ok u))).next

theorem Inv.mutation_step (h : Inv x m early late y) : Next x m early late (y.step .mutation) := by
  obtain ⟨⟨o, w⟩, load, mutation⟩ := y
  have hproject : o.project = x.client.project := h.project
  have hmutation := h.mutation
  cases hmutation with
  | idle hsame => exact h.begin_mutation hsame
  | creating hsame hnone hscope hnext => exact h.create hnone hscope hnext
  | updating hsame hid hnext => exact h.update hid hnext
  | written hid hrest =>
    obtain ⟨abandon, next, o', hpause, ho, hnext⟩ := hrest o
    have hload : LoadAt x.client.project x.service w false early load :=
      h.load.congr nofun (.refl w)
    simp only [step, Thread.step, hpause]
    exact (h.mutation_on rfl rfl rfl ho hload (.reading hid hnext)).next
  | @reading id next hid hnext =>
    rcases hread : LocalService.service (.getPolicy id) w with ⟨f | p, w'⟩
    · simp only [step, Thread.step, hread]
      exact .inr (.inl (hnext.error f))
    · obtain ⟨hp, hsame⟩ := LocalService.getPolicy_ok hread
      have hsettles := (settles_of_adopts hnext hid hp).congr hsame
      have hload : LoadAt x.client.project x.service w' false early load :=
        h.load.congr nofun hsame
      simp only [step, Thread.step, hread]
      exact (h.mutation_on rfl rfl rfl rfl hload (.settled hsettles)).next
  | settled hrest =>
    obtain ⟨a, o', hpause, hproject', htracks⟩ := hrest o hproject
    simp only [step, Thread.step, hpause]
    exact h.mutation_over rfl hproject' fun _ => htracks
  | ended r => exact h.next

end Mutation

theorem Inv.step (h : Inv x m early late y) (side : Side) :
    Next x m early late (y.step side) := by
  cases side with
  | load => exact h.load_step
  | mutation => exact h.mutation_step

theorem failed_after (y : Overlap) (turns : List Side) :
    (Failed y.load → Failed (y.after turns).load) ∧
      (Failed y.mutation → Failed (y.after turns).mutation) := by
  induction turns generalizing y with
  | nil => exact ⟨id, id⟩
  | cons side turns ih =>
    have hstep := ih (y.step side)
    cases side with
    | load => exact ⟨fun h => hstep.1 (failed_step h _ _), hstep.2⟩
    | mutation => exact ⟨hstep.1, fun h => hstep.2 (failed_step h _ _)⟩

theorem Inv.after (h : Inv x m early late y) (turns : List Side) :
    Failed (y.after turns).load ∨ Failed (y.after turns).mutation ∨
      Inv x m (early || y.sometime Overlap.early turns) (late || y.sometime Overlap.late turns)
        (y.after turns) := by
  induction turns generalizing y early late with
  | nil =>
    simp only [sometime, Bool.or_false]
    exact .inr (.inr h)
  | cons side turns ih =>
    have hfailed := failed_after (y.step side) turns
    rcases h.step side with hload | hmutation | hinv
    · exact .inl (hfailed.1 hload)
    · exact .inr (.inl (hfailed.2 hmutation))
    · have hafter := ih hinv
      simp only [Bool.or_assoc] at hafter
      exact hafter

theorem inv_start {b : Bool} (h : Session.Tracks b x) (m : Mutation) :
    Inv x m false false (start x m) where
  project := rfl
  load := .idle rfl
  mutation := .idle (.refl _)
  begins _ := by
    cases h with
    | unsaved hsaved hcopy hproject => exact .unsaved hsaved hcopy hproject
    | saved hsaved hproject hstored _ => exact .saved hsaved hproject hstored nofun
  not_late _ := rfl
  late_of_open := nofun
  copy := nofun

/-- When a load and a mutation have both succeeded, in whatever order their turns came, the copy is
what is stored, unless the load was overtaken: then it is what was stored before the mutation. -/
theorem copy_after_overlap (x : Session) (m : Mutation) (turns : List Side) {b : Bool}
    (h : Session.Tracks b x) {found : Option PolicyId}
    (hload : ((start x m).after turns).load.result? = some (.ok found))
    (hmutation : ((start x m).after turns).mutation.result? = some (.ok ())) :
    let y := (start x m).after turns
    ((start x m).overtaken turns = false → Session.Tracks false y.toSession) ∧
      ((start x m).overtaken turns = true → Session.Tracks false ⟨y.client, x.service⟩) := by
  intro y
  rcases (inv_start h m).after turns with hfailed | hfailed | hinv
  · rw [Thread.eq_ended_of_result? hload] at hfailed
    cases hfailed
  · rw [Thread.eq_ended_of_result? hmutation] at hfailed
    cases hfailed
  · have hcopy := hinv.copy (by rw [Thread.isEnded, hmutation]; rfl)
      (by rw [Thread.isEnded, hload]; rfl)
    simp only [Bool.false_or] at hcopy
    change Session.Tracks false ⟨_, if (start x m).overtaken turns then _ else _⟩ at hcopy
    constructor
    · intro hovertaken
      rwa [hovertaken] at hcopy
    · intro hovertaken
      rwa [hovertaken] at hcopy

/-- The load is answered before the write, but it ends while the mutation is under way. -/
theorem copy_after_overlap_of_load_between :
    let x := Session.new 1
    let m := Mutation.setTrigger dailyCron
    let turns : List Side :=
      [.load, .load, .mutation, .mutation, .load, .mutation, .mutation, .mutation]
    let y := (start x m).after turns
    y.load.result? = some (.ok none) ∧ y.mutation.result? = some (.ok ()) ∧
      (start x m).overtaken turns = false ∧ Session.Tracks false y.toSession := by
  intro x m turns y
  have htracks : Session.Tracks false x := .unsaved rfl rfl rfl
  have hload : y.load.result? = some (.ok none) := by decide +kernel
  have hmutation : y.mutation.result? = some (.ok ()) := by decide +kernel
  have hovertaken : (start x m).overtaken turns = false := by decide +kernel
  exact ⟨hload, hmutation, hovertaken,
    (copy_after_overlap x m turns htracks hload hmutation).1 hovertaken⟩

/-- The lookup of the load is answered before the mutation creates the policy, and the load ends
after the mutation: the client takes the policy that it made for unsaved. -/
theorem created_policy_forgotten :
    let turns : List Side :=
      [.load, .load, .mutation, .mutation, .mutation, .mutation, .mutation, .load]
    let y := (start (.new 1) (.setTrigger dailyCron)).after turns
    y.load.result? = some (.ok none) ∧ y.mutation.result? = some (.ok ()) ∧ y.client.saved = none ∧
      y.service.projects.get? y.client.project = some 1 ∧ ¬ Session.Tracks false y.toSession := by
  intro turns y
  have hsaved : y.client.saved = none := by decide +kernel
  have hstored : y.service.projects.get? y.client.project = some 1 := by decide +kernel
  refine ⟨by decide +kernel, by decide +kernel, hsaved, hstored, fun htracks => ?_⟩
  cases hsaved.symm.trans (htracks.saved_eq.trans hstored)

end TagRetention.Client.Overlap
