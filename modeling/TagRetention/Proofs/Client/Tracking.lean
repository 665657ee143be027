import TagRetention.Proofs.Client.Turns

/-!
Calls on one tracker that overlap. What every turn and every change of the policy preserve holds
along all histories.
-/

namespace TagRetention.Client.Tracker

open Relation (ReflTransGen)

/-- Giving up a call on a tracker undoes nothing. -/
def InUse.Waits (x : InUse) : Prop :=
  ∀ e ∈ x.sent, e.IfWaiting fun kind seen q abandon next => abandon = id ∧ Awaits kind seen q next

variable {kind : Command} {c : Call Tracker Unit} {x : InUse} {n i : Nat} {e : Sent}
  {fate : (q : Request) → Fate Tracker Unit q}

theorem InUse.Waits.proceed (hx : InUse.Waits x) (hc : Proceeds kind c x.object) (i : Nat) :
    InUse.Waits (x.proceed i kind c) ∧
      ReflTransGen Turn (InUse.scene x) (InUse.scene (x.proceed i kind c)) := by
  have h := hc (x.sent.map Sent.asked)
  unfold Shared.proceed
  rcases hp : c.pause x.object with ⟨a | ⟨q, abandon, next⟩, t⟩
  · rw [hp] at h
    exact ⟨hx, h⟩
  · rw [hp] at h
    obtain ⟨habandon, hnext, hturns⟩ := h
    constructor
    · intro e he
      rcases List.mem_append.1 he with he | he
      · exact hx e he
      · rw [List.mem_singleton.1 he]
        exact ⟨habandon, hnext⟩
    · rw [InUse.scene, InUse.scene, Shared.record, List.map_append]
      exact hturns

theorem getElem?_scene (hn : x.sent[n]? = some e) :
    (InUse.scene x).asked[n]? = some (Sent.asked e) := by
  rw [InUse.scene, List.getElem?_map, hn]
  rfl

theorem scene_settle (hn : x.sent[n]? = some e)
    (hasked : Sent.asked (e.settle fate) = Sent.asked e) :
    InUse.scene (x.settle n fate) = InUse.scene x := by
  have hset : (x.sent.map Sent.asked).set n (Sent.asked e) = x.sent.map Sent.asked :=
    Scene.set_of_getElem? (getElem?_scene hn)
  rw [InUse.scene, Shared.map_sent_settle_of_getElem? _ hn, hasked, hset]
  rfl

theorem scene_answer {f : Tracker → Tracker} {a : Asked} {answers : (q : Request) → q.Reply}
    (hn : x.sent[n]? = some e)
    (hasked : Sent.asked (e.settle fun q => .answered (answers q)) = a) (i : Nat) (kind : Command) :
    InUse.scene ((x.settle n fun q => .answered (answers q)).proceed i kind
      (.change f (.finish ()))) = ⟨f x.object, (InUse.scene x).asked.set n a⟩ := by
  have hscene : InUse.scene ((x.settle n fun q => .answered (answers q)).proceed i kind
      (.change f (.finish ()))) =
        ⟨f x.object, (x.settle n fun q => .answered (answers q)).sent.map Sent.asked⟩ := rfl
  rw [hscene, Shared.map_sent_settle_of_getElem? _ hn, hasked]
  rfl

theorem InUse.Waits.reply (hx : InUse.Waits x) {seen : Tracker} {q : Request}
    {abandon : Tracker → Tracker} {next : q.Reply → Call Tracker Unit}
    (hn : x.sent[n]? = some ⟨i, kind, seen, q, .waiting abandon next⟩)
    (answers : (q : Request) → q.Reply) :
    InUse.Waits ((x.settle n fun q => .answered (answers q)).proceed i kind (next (answers q))) ∧
      ReflTransGen Turn (InUse.scene x) (InUse.scene
        ((x.settle n fun q => .answered (answers q)).proceed i kind (next (answers q)))) := by
  have hsettled : InUse.Waits (x.settle n fun q => .answered (answers q)) :=
    Shared.ifWaiting_settle hx (fun _ => rfl) n
  have hget := getElem?_scene hn
  have hnext : Awaits kind seen q next := (hx _ (List.mem_of_getElem? hn)).2
  cases hnext with
  | runs hkind id page =>
    refine ⟨hsettled, .single ?_⟩
    rw [scene_answer hn (asked_runs hkind seen id page _)]
    exact .takeRuns (hget.trans (congrArg some (asked_runs hkind seen id page none))) rfl _
  | tasks hkind id execution page =>
    refine ⟨hsettled, .single ?_⟩
    rw [scene_answer hn (asked_tasks hkind seen id execution page _)]
    exact .takeTasks (hget.trans (congrArg some (asked_tasks hkind seen id execution page none)))
      rfl _
  | other hq hreply =>
    have hscene : InUse.scene (x.settle n fun q => .answered (answers q)) = InUse.scene x :=
      scene_settle hn ((hq _).trans (hq _).symm)
    rw [← hscene]
    apply hsettled.proceed
    rcases hreply (answers q) with hend | ⟨hkind, hrefresh⟩
    · rw [hend]
      exact proceeds_finish
    · rw [hrefresh]
      exact proceeds_refresh hkind _

/-- A tracker in use. When its policy was attached, `since` requests had been sent. -/
structure Tracking where
  use : InUse
  since : Nat

namespace Tracking

def new (executionPageSize taskPageSize : Nat) : Tracking :=
  ⟨Shared.new (.new executionPageSize taskPageSize), 0⟩

def step (x : Tracking) (m : Move Command) : Tracking :=
  let y := x.use.step Command.call m
  ⟨y, if y.object.policyId = x.use.object.policyId then x.since else y.sent.length⟩

def after (x : Tracking) (moves : List (Move Command)) : Tracking :=
  moves.foldl step x

def scene (x : Tracking) : Scene :=
  InUse.scene x.use

/-- A move attaches another policy or goes by turns. -/
inductive Step (x y : Tracking) : Prop where
  | attach (policy : Option PolicyId) (hne : x.scene.tracker.policyId ≠ policy)
    (hscene : y.scene = ⟨x.scene.tracker.attach policy, x.scene.asked⟩)
    (hsince : y.since = x.scene.asked.length)
  | turns (hturns : ReflTransGen Turn x.scene y.scene) (hsince : y.since = x.since)

variable {x : Tracking} {m : Move Command}

theorem step_of_turns
    (h : ReflTransGen Turn x.scene (InUse.scene (x.use.step Command.call m))) :
    Step x (x.step m) :=
  .turns h (if_pos (policyId_eq_of_turns h))

theorem step_attach (x : Tracking) (policy : Option PolicyId) :
    Step x (x.step (.start (.attach policy))) := by
  have hstep : x.use.step Command.call (.start (.attach policy)) =
      { x.use with
        object := x.use.object.attach policy
        started := x.use.started + 1
        results := x.use.results ++ [(x.use.started, ())] } := rfl
  by_cases hsame : x.use.object.policyId = policy
  · apply step_of_turns
    rw [hstep, attach, if_pos hsame]
    exact .refl
  · have hpolicy : (x.use.object.attach policy).policyId = policy := by
      rw [attach, if_neg hsame]
    refine .attach policy hsame ?_ ?_
    · rw [scene, step, hstep]
      rfl
    · rw [step, hstep]
      simp only [hpolicy, Ne.symm hsame, if_false]
      exact (List.length_map _).symm

theorem waits_step (hx : InUse.Waits x.use) (m : Move Command) :
    InUse.Waits (x.step m).use ∧ Step x (x.step m) := by
  have hstep := Shared.step_cases Command.call x.use m
  have hturns := step_of_turns (x := x) (m := m)
  rw [step] at *
  generalize x.use.step Command.call m = y at *
  cases hstep with
  | idle => exact ⟨hx, hturns .refl⟩
  | start kind =>
    by_cases hkind : ∃ policy, kind = .attach policy
    · obtain ⟨policy, rfl⟩ := hkind
      exact ⟨hx, step_attach x policy⟩
    · have hproceeds := proceeds_call (fun policy h => hkind ⟨policy, h⟩) x.use.object
      have hstarted : InUse.Waits { x.use with started := x.use.started + 1 } := hx
      obtain ⟨hwaits, h⟩ := hstarted.proceed hproceeds x.use.started
      exact ⟨hwaits, hturns h⟩
  | reply answers hn =>
    obtain ⟨hwaits, h⟩ := hx.reply hn answers
    exact ⟨hwaits, hturns h⟩
  | @drop n caller kind seen q abandon next hn =>
    have hsettled : InUse.Waits (x.use.settle n fun _ => .dropped) := Shared.ifWaiting_settle hx (fun _ => rfl) n
    have hid : abandon = id := (hx _ (List.mem_of_getElem? hn)).1
    have hscene : InUse.scene (x.use.settle n fun _ => .dropped) = x.scene := scene_settle hn rfl
    subst hid
    refine ⟨hsettled, hturns ?_⟩
    have hsame : InUse.scene { x.use.settle n fun _ => .dropped with object := id x.use.object } =
        InUse.scene (x.use.settle n fun _ => .dropped) := rfl
    rw [hsame, hscene]

theorem waits_new (executionPageSize taskPageSize : Nat) :
    InUse.Waits (new executionPageSize taskPageSize).use :=
  List.forall_mem_nil _

theorem waits_after (hx : InUse.Waits x.use) (moves : List (Move Command)) :
    InUse.Waits (x.after moves).use := by
  induction moves generalizing x with
  | nil => exact hx
  | cons m moves ih => exact ih (waits_step hx m).1

/-- What no turn and no change of the policy breaks. -/
structure Invariant (P : Scene → Nat → Prop) : Prop where
  attach : ∀ (s : Scene) (since : Nat) (policy : Option PolicyId), P s since →
    s.tracker.policyId ≠ policy → P ⟨s.tracker.attach policy, s.asked⟩ s.asked.length
  turn : ∀ (s t : Scene) (since : Nat), P s since → Turn s t → P t since

variable {P : Scene → Nat → Prop}

theorem Invariant.turns (hP : Invariant P) {s t : Scene} {since : Nat}
    (h : ReflTransGen Turn s t) (hs : P s since) : P t since := by
  induction h with
  | refl => exact hs
  | tail _ hturn ih => exact hP.turn _ _ _ ih hturn

theorem Invariant.step (hP : Invariant P) (hx : InUse.Waits x.use) (h : P x.scene x.since)
    (m : Move Command) : P (x.step m).scene (x.step m).since := by
  cases (waits_step hx m).2 with
  | attach policy hne hscene hsince =>
    rw [hscene, hsince]
    exact hP.attach _ _ _ h hne
  | turns hturns hsince =>
    rw [hsince]
    exact hP.turns hturns h

theorem Invariant.after (hP : Invariant P) (hx : InUse.Waits x.use) (h : P x.scene x.since)
    (moves : List (Move Command)) : P (x.after moves).scene (x.after moves).since := by
  induction moves generalizing x with
  | nil => exact h
  | cons m moves ih => exact ih (waits_step hx m).1 (hP.step hx h m)

theorem asked_eq_runs {d : Sent} {e : Entry PolicyId Execution} (h : Sent.asked d = .runs e) :
    d.kind.isQuery = false ∧ d.seen.executions.issued = e.ticket ∧
      (∃ page, d.request = .listExecutions e.subject page) ∧
        (d.isWaiting = true → e.answer = none) := by
  obtain ⟨caller, kind, seen, q, fate⟩ := d
  cases hkind : kind.isQuery with
  | true => cases (asked_query hkind seen q fate.answer?).symm.trans h
  | false =>
    cases q with
    | listExecutions id page =>
      cases (asked_runs hkind seen id page fate.answer?).symm.trans h
      refine ⟨rfl, rfl, ⟨page, rfl⟩, ?_⟩
      cases fate with
      | waiting => exact fun _ => rfl
      | answered | dropped => exact fun h => Bool.noConfusion h
    | listTasks id execution page =>
      cases (asked_tasks hkind seen id execution page fate.answer?).symm.trans h
    | _ => cases h

/-- The answer to a request for the list of runs is handed to the list with the number that the
request was sent with. -/
theorem reply_waiting (hx : InUse.Waits x.use) {n : Nat} {d : Sent}
    {e : Entry PolicyId Execution} {page : PageRequest} (hd : x.use.sent[n]? = some d)
    (hasked : Sent.asked d = .runs e) (hwait : d.isWaiting = true)
    (hrequest : d.request = .listExecutions e.subject page) (answers : (q : Request) → q.Reply) :
    (x.step (.reply n answers)).scene =
      ⟨x.scene.tracker.onExecutions (·.finish e.ticket (answers (.listExecutions e.subject page))),
        x.scene.asked.set n
          (.runs { e with answer := some (answers (.listExecutions e.subject page)) })⟩ := by
  obtain ⟨hkind, hticket, -, -⟩ := asked_eq_runs hasked
  obtain ⟨caller, kind, seen, q, fate⟩ := d
  cases hrequest
  cases fate with
  | answered | dropped => cases hwait
  | waiting abandon next =>
    have hnext : Awaits kind seen (.listExecutions e.subject page) next :=
      (hx _ (List.mem_of_getElem? hd)).2
    cases hnext with
    | runs hkind id page =>
      have hfilled := asked_runs hkind seen e.subject page
        (some (answers (.listExecutions e.subject page)))
      have hreply : (x.step (.reply n answers)).use =
          (x.use.settle n fun q => .answered (answers q)).proceed caller kind
            (.change (onExecutions (·.finish seen.executions.issued
              (answers (.listExecutions e.subject page)))) (.finish ())) := by
        rw [step, Shared.step, hd]
      rw [← hticket]
      exact (congrArg InUse.scene hreply).trans (scene_answer hd hfilled caller kind)
    | other hq hreply => cases (hq none).symm.trans hasked

theorem reply_settled {n : Nat} {d : Sent} (hd : x.use.sent[n]? = some d)
    (hsettled : d.isWaiting = false) (answers : (q : Request) → q.Reply) :
    (x.step (.reply n answers)).scene = x.scene := by
  obtain ⟨caller, kind, seen, q, fate⟩ := d
  cases fate with
  | waiting => cases hsettled
  | answered | dropped => rw [scene, step, Shared.step, hd]; rfl

/-- A reply to a request for the list of runs is taken by the list or does nothing. -/
theorem reply_runs (hx : InUse.Waits x.use) {n : Nat} {e : Entry PolicyId Execution}
    (hn : x.scene.runs[n]? = some (some e)) (answers : (q : Request) → q.Reply) :
    (x.step (.reply n answers)).scene = x.scene ∨
      e.answer = none ∧ ∃ answer, (x.step (.reply n answers)).scene =
        ⟨x.scene.tracker.onExecutions (·.finish e.ticket answer),
          x.scene.asked.set n (.runs { e with answer := some answer })⟩ := by
  rw [Scene.getElem?_runs, scene, InUse.scene, List.getElem?_map] at hn
  obtain ⟨d, hd, hasked⟩ := Option.map_eq_some_iff.1 hn
  obtain ⟨-, -, ⟨page, hrequest⟩, hanswer⟩ := asked_eq_runs hasked
  cases hwait : d.isWaiting with
  | false => exact .inl (reply_settled hd hwait answers)
  | true => exact .inr ⟨hanswer hwait, _, reply_waiting hx hd hasked hwait hrequest answers⟩

end Tracking

end TagRetention.Client.Tracker
