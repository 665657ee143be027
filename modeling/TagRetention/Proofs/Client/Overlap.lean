import TagRetention.Proofs.Client.OneMutation
import TagRetention.Proofs.Client.Session

/-!
A load and a mutation of one orchestrator that overlap. The service answers a request at some
moment after it was sent, and the reply is delivered at some moment after that; the other call may
go on at any of these.
-/

namespace TagRetention.Client

variable {σ α S : Type}

/-- How far a call is that others may interrupt: not begun, or a request or its reply is on its way,
or it is over. -/
inductive Thread (σ α : Type) where
  | idle (c : Call σ α)
  | asks (q : Request) (next : q.Reply → Call σ α)
  | answered (rest : Call σ α)
  | ended (a : α)

namespace Thread

def ofPause : Pause σ α → Thread σ α
  | .ended a => .ended a
  | .asks q _ next => .asks q next

def step (service : Service S) (s : σ) (w : S) : Thread σ α → Thread σ α × σ × S
  | .idle c => (ofPause (c.pause s).1, (c.pause s).2, w)
  | .asks q next => (.answered (next (service q w).1), s, (service q w).2)
  | .answered rest => (ofPause (rest.pause s).1, (rest.pause s).2, w)
  | .ended a => (.ended a, s, w)

def isIdle : Thread σ α → Bool
  | .idle _ => true
  | _ => false

def result? : Thread σ α → Option α
  | .ended a => some a
  | _ => none

theorem eq_ended_of_result? {thread : Thread σ α} {a : α} (h : thread.result? = some a) :
    thread = .ended a := by
  cases thread with
  | ended a' => rw [Option.some.inj h]
  | idle | asks | answered => cases h

def isEnded (thread : Thread σ α) : Bool :=
  thread.result?.isSome

/-- The last reply is on its way: with it the call will be over. -/
def isSettled (s : σ) : Thread σ α → Bool
  | .answered rest => (ofPause (rest.pause s).1).isEnded
  | _ => false

/-- The call has not had its write answered, as far as it will write. -/
def isUnwritten : Thread σ α → Bool
  | .idle _ => true
  | .asks q _ => q.document?.isSome
  | _ => false

theorem isUnwritten_of_isIdle {thread : Thread σ α} (h : thread.isIdle = true) :
    thread.isUnwritten = true := by
  cases thread with
  | idle c => rfl
  | asks | answered | ended => cases h

end Thread

open Orchestrator

structure Overlap extends Session where
  load : Thread Orchestrator (Except MutationFault (Option PolicyId))
  mutation : Thread Orchestrator (Except MutationFault Unit)

namespace Overlap

inductive Side where
  | load
  | mutation

def start (x : Session) (m : Mutation) : Overlap :=
  ⟨x, .idle Orchestrator.load, .idle (mutate m)⟩

def step (y : Overlap) : Side → Overlap
  | .load =>
    let (thread, o, w) := y.load.step LocalService.service y.client y.service
    ⟨⟨o, w⟩, thread, y.mutation⟩
  | .mutation =>
    let (thread, o, w) := y.mutation.step LocalService.service y.client y.service
    ⟨⟨o, w⟩, y.load, thread⟩

def after (y : Overlap) (turns : List Side) : Overlap :=
  turns.foldl step y

def sometime (moment : Overlap → Bool) (y : Overlap) : List Side → Bool
  | [] => false
  | t :: turns => moment (y.step t) || (y.step t).sometime moment turns

/-- What the load will end with has been answered, and the write has not. -/
def early (y : Overlap) : Bool :=
  y.load.isSettled y.client && y.mutation.isUnwritten

def late (y : Overlap) : Bool :=
  y.mutation.isEnded && !y.load.isEnded

/-- The load ends after the mutation, with what was answered before the write. -/
def overtaken (y : Overlap) (turns : List Side) : Bool :=
  y.sometime early turns && y.sometime late turns

end Overlap

namespace Orchestrator

variable {α : Type}

/-- The call has failed: it is over with a fault as soon as it goes on. -/
def Fails (c : Attempt α) : Prop :=
  ∀ o, ∃ f, (c.pause o).1 = .ended (.error f)

/-- The call is over once the policy has been loaded: its copy is what it was answered. -/
structure Adopts (id : PolicyId) (next : Except ServiceFault Policy → Attempt α) : Prop where
  error : ∀ f, Fails (next (.error f))
  ok : ∀ p o, ∃ a o', (next (.ok p)).pause o = (.ended (.ok a), o') ∧ o'.project = o.project ∧
    o'.saved = some id ∧ o'.policy = p.withId id

def Reads (id : PolicyId) (c : Attempt α) : Prop :=
  ∀ o, ∃ abandon next o', c.pause o = (.asks (.getPolicy id) abandon next, o') ∧
    o'.project = o.project ∧ Adopts id next

def SameCopy (o o' : Orchestrator) : Prop :=
  o'.project = o.project ∧ o'.saved = o.saved ∧ o'.policy = o.policy

structure Finds (next : Except ServiceFault (Option PolicyId) → Attempt α) : Prop where
  error : ∀ f, Fails (next (.error f))
  none : ∀ o, ∃ a, (next (.ok none)).pause o = (.ended (.ok a), o.forget.setLoading false)
  some : ∀ id, Reads id (next (.ok (some id))) ∧ ∀ o, ((next (.ok (some id))).pause o).2 = o

theorem pause_load {project : ProjectId} {o : Orchestrator} (ho : o.project = project) :
    ∃ abandon next, load.pause o =
      (.asks (.projectRetention project) abandon next, o.setLoading true) ∧ Finds next := by
  subst ho
  refine ⟨_, _, rfl, fun f o => ⟨_, rfl⟩, fun o => ⟨_, rfl⟩, fun id => ⟨fun o => ?_, fun o => rfl⟩⟩
  exact ⟨_, _, _, rfl, rfl, fun f o => ⟨_, rfl⟩, fun p o => ⟨_, _, rfl, rfl, rfl, rfl⟩⟩

structure Notes {β : Type} (id : β → PolicyId) (next : Except ServiceFault β → Attempt α) :
    Prop where
  error : ∀ f, Fails (next (.error f))
  ok : ∀ a, Reads (id a) (next (.ok a))

/-- How a mutation begins: it is refused or has nothing to do, or it sends a write. -/
inductive Begins (o : Orchestrator) : Pause Orchestrator (Except MutationFault Unit) → Prop where
  | refused (f : MutationFault) : Begins o (.ended (.error f))
  | kept : Begins o (.ended (.ok ()))
  | creates {draft : Policy} {abandon : Orchestrator → Orchestrator}
    {next : (Request.createPolicy draft).Reply → Attempt Unit} (hsaved : o.saved = none)
    (hscope : draft.scope = o.policy.scope) (hnext : Notes id next) :
    Begins o (.asks (.createPolicy draft) abandon next)
  | updates {id : PolicyId} {draft : Policy} {abandon : Orchestrator → Orchestrator}
    {next : (Request.updatePolicy id draft).Reply → Attempt Unit} (hsaved : o.saved = some id)
    (hnext : Notes (fun _ => id) next) : Begins o (.asks (.updatePolicy id draft) abandon next)

/-- How a mutation goes on once it is known what became of its change. -/
def conclude (m : Mutation) (result : Except MutationFault Unit) : Attempt Unit :=
  match m, result with
  | .setTrigger _, .ok _ => .change (setEditing false) (.finish (.ok ()))
  | m, result => .finish (if m.submitsRule then result.mapError .ofSubmission else result)

/-- A part of a mutation after its write, up to the end of the mutation. -/
def concluding (m : Mutation) (c : Attempt Unit) : Attempt Unit :=
  ((c.releasing (setLoading false)).bind (conclude m)).releasing (setPending false)

theorem Reads.change {id : PolicyId} {c : Attempt α} (h : Reads id c)
    {f : Orchestrator → Orchestrator} (hf : ∀ o, (f o).project = o.project) :
    Reads id (.change f c) := by
  intro o
  obtain ⟨abandon, next, o', hpause, hproject, hnext⟩ := h (f o)
  exact ⟨abandon, next, o', hpause, hproject.trans (hf o), hnext⟩

theorem fails_concluding (m : Mutation) (f : MutationFault) :
    Fails (concluding m (.finish (.error f))) := by
  intro o
  cases m <;> exact ⟨_, rfl⟩

theorem reads_refresh (m : Mutation) (id : PolicyId) : Reads id (concluding m (refresh id)) := by
  intro o
  refine ⟨_, _, o, rfl, rfl, fun f => fails_concluding m (.refresh f), fun p o => ?_⟩
  cases m <;> exact ⟨_, _, rfl, rfl, rfl, rfl⟩

theorem begins_carryOut (m : Mutation) {draft : Policy} {o : Orchestrator}
    (hscope : draft.scope = o.policy.scope) :
    let c := (carryOut m draft).releasing (setPending false)
    Begins o (c.pause (o.setPending true)).1 ∧ SameCopy o (c.pause (o.setPending true)).2 := by
  have hpersist : (carryOut m draft).releasing (setPending false) =
      ((persist draft).bind (conclude m)).releasing (setPending false) := rfl
  have hsaved : (setLoading true (setPending true o)).saved = o.saved := rfl
  simp only [hpersist, persist, whileLoading, Call.look, Call.change, Call.releasing, Call.bind,
    Call.pause, id_eq, hsaved]
  cases hs : o.saved with
  | none =>
    refine ⟨.creates hs hscope ⟨fun f => fails_concluding m (.service f), fun id => ?_⟩,
      rfl, rfl, rfl⟩
    exact (reads_refresh m id).change fun _ => rfl
  | some id =>
    exact ⟨.updates hs ⟨fun f => fails_concluding m (.service f), fun _ => reads_refresh m id⟩,
      rfl, rfl, rfl⟩

theorem begins_mutate (m : Mutation) (o : Orchestrator) :
    Begins o ((mutate m).pause o).1 ∧ SameCopy o ((mutate m).pause o).2 := by
  cases hpending : o.mutationPending with
  | true =>
    rw [pause_mutate_busy hpending]
    exact ⟨.refused _, rfl, rfl, rfl⟩
  | false =>
    rw [pause_mutate_free hpending]
    unfold attempt
    rcases m.plan o.policy o.catalog with f | _ | edit
    · exact ⟨.refused f, rfl, rfl, rfl⟩
    · exact ⟨.kept, rfl, rfl, rfl⟩
    · exact begins_carryOut m (edit.scope_apply o.policy)

end Orchestrator

end TagRetention.Client
