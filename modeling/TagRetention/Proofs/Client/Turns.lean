import Mathlib.Logic.Relation
import TagRetention.Client.Tracker
import TagRetention.Proofs.Client.Ledger
import TagRetention.Proofs.Client.Shared

/-!
What the calls on a tracker do between two requests, turn by turn, and what each request is to the
two lists of the tracker.
-/

namespace TagRetention.Client.Tracker

open Relation (ReflTransGen)

inductive Command where
  | attach (policy : Option PolicyId)
  | refresh
  | goToPage (page : Nat)
  | setPageSize (pageSize : Nat)
  | startRun (dryRun : Bool)
  | abortRun (execution : ExecutionId)
  | togglePanel (execution : ExecutionId)
  | loadTasks
  | goToTaskPage (page : Nat)
  | listExecutions (id : PolicyId) (page : PageRequest)
  | listTasks (execution : ExecutionId) (page : PageRequest)
  | taskLog (execution : ExecutionId) (task : TaskId)

/-- What such a call learns is for its caller only. -/
def Command.isQuery : Command → Bool
  | .listExecutions _ _ | .listTasks _ _ | .taskLog _ _ => true
  | _ => false

def dismiss {α : Type} (c : Attempt α) : Call Tracker Unit :=
  c.map fun _ => ()

def Command.call : Command → Call Tracker Unit
  | .attach policy => .change (Tracker.attach policy) (.finish ())
  | .refresh => dismiss Tracker.refresh
  | .goToPage page => dismiss (Tracker.goToPage page)
  | .setPageSize pageSize => dismiss (Tracker.setPageSize pageSize)
  | .startRun dryRun => dismiss (Tracker.startRun dryRun)
  | .abortRun execution => dismiss (Tracker.abortRun execution)
  | .togglePanel execution => dismiss (toggleTaskPanel execution)
  | .loadTasks => dismiss Tracker.loadTasks
  | .goToTaskPage page => dismiss (Tracker.goToTaskPage page)
  | .listExecutions id page => dismiss (Tracker.listExecutions id page)
  | .listTasks execution page => dismiss (Tracker.listTasks execution page)
  | .taskLog execution task => dismiss (Tracker.taskLog execution task)

abbrev InUse := Shared Command Tracker Unit

abbrev Sent := Errand Command Tracker Unit

/-- What a request is to the two lists of the tracker. -/
inductive Asked where
  | runs (e : Entry PolicyId Execution)
  | tasks (e : Entry (PolicyId × ExecutionId) Task)
  | other

def Asked.runs? : Asked → Option (Entry PolicyId Execution)
  | .runs e => some e
  | _ => none

def Asked.tasks? : Asked → Option (Entry (PolicyId × ExecutionId) Task)
  | .tasks e => some e
  | _ => none

/-- A request is sent with the number that its list has just issued. -/
def asked (kind : Command) (seen : Tracker) : (q : Request) → Option q.Reply → Asked
  | .listExecutions id _, answer =>
    if kind.isQuery then .other else .runs ⟨id, seen.executions.issued, answer⟩
  | .listTasks id execution _, answer =>
    if kind.isQuery then .other else .tasks ⟨(id, execution), seen.tasks.issued, answer⟩
  | _, _ => .other

def Sent.asked (e : Sent) : Asked :=
  Tracker.asked e.kind e.seen e.request e.fate.answer?

structure Scene where
  tracker : Tracker
  asked : List Asked

def InUse.scene (x : InUse) : Scene :=
  ⟨x.object, x.sent.map Sent.asked⟩

namespace Scene

def runs (s : Scene) : Ledger PolicyId Execution :=
  s.asked.map Asked.runs?

def tasks (s : Scene) : Ledger (PolicyId × ExecutionId) Task :=
  s.asked.map Asked.tasks?

variable {s : Scene} {t : Tracker} {n : Nat}

theorem runs_append (a : Asked) :
    (⟨t, s.asked ++ [a]⟩ : Scene).runs = s.runs ++ [a.runs?] :=
  List.map_append

theorem tasks_append (a : Asked) :
    (⟨t, s.asked ++ [a]⟩ : Scene).tasks = s.tasks ++ [a.tasks?] :=
  List.map_append

theorem runs_set (e : Entry PolicyId Execution) :
    (⟨t, s.asked.set n (.runs e)⟩ : Scene).runs = s.runs.set n (some e) :=
  List.map_set

theorem tasks_set (e : Entry (PolicyId × ExecutionId) Task) :
    (⟨t, s.asked.set n (.tasks e)⟩ : Scene).tasks = s.tasks.set n (some e) :=
  List.map_set

theorem getElem?_runs {e : Entry PolicyId Execution} :
    s.runs[n]? = some (some e) ↔ s.asked[n]? = some (.runs e) := by
  rw [runs, List.getElem?_map]
  rcases s.asked[n]? with _ | (_ | _ | _) <;> simp [Asked.runs?]

theorem getElem?_tasks {e : Entry (PolicyId × ExecutionId) Task} :
    s.tasks[n]? = some (some e) ↔ s.asked[n]? = some (.tasks e) := by
  rw [tasks, List.getElem?_map]
  rcases s.asked[n]? with _ | (_ | _ | _) <;> simp [Asked.tasks?]

theorem set_of_getElem? {β : Type} {l : List β} {b : β} (h : l[n]? = some b) : l.set n b = l := by
  obtain ⟨hlt, rfl⟩ := List.getElem?_eq_some_iff.1 h
  exact List.set_getElem_self hlt

theorem map_set_of_getElem? {β : Type} {f : Asked → β} {asked : List Asked} {a a' : Asked}
    (h : asked[n]? = some a) (hf : f a' = f a) : (asked.set n a').map f = asked.map f := by
  rw [List.map_set, hf]
  apply set_of_getElem?
  rw [List.getElem?_map, h]
  rfl

theorem runs_set_tasks {e : Entry (PolicyId × ExecutionId) Task}
    (hn : s.asked[n]? = some (.tasks e)) (d : Entry (PolicyId × ExecutionId) Task) :
    (⟨t, s.asked.set n (.tasks d)⟩ : Scene).runs = s.runs :=
  map_set_of_getElem? hn rfl

theorem tasks_set_runs {e : Entry PolicyId Execution} (hn : s.asked[n]? = some (.runs e))
    (d : Entry PolicyId Execution) : (⟨t, s.asked.set n (.runs d)⟩ : Scene).tasks = s.tasks :=
  map_set_of_getElem? hn rfl

end Scene

/-- One thing that a call does, or that an answer does to a call. -/
inductive Turn : Scene → Scene → Prop where
  | goToPage (s : Scene) (page : Nat) :
    Turn s { s with tracker := s.tracker.onExecutions (.goTo page) }
  | setPageSize (s : Scene) (pageSize : Nat) :
    Turn s { s with tracker := s.tracker.onExecutions (.resize pageSize) }
  | goToTaskPage (s : Scene) (page : Nat) :
    Turn s { s with tracker := s.tracker.onTasks (.goTo page) }
  | closePanel (s : Scene) : Turn s { s with tracker := s.tracker.closePanel }
  | openPanel (s : Scene) (execution : ExecutionId) :
    Turn s { s with tracker := s.tracker.openPanelOf execution }
  | askRuns {s : Scene} {id : PolicyId} (hid : s.tracker.policyId = some id) :
    Turn s ⟨s.tracker.onExecutions .begin,
      s.asked ++ [.runs ⟨id, s.tracker.executions.ticket, none⟩]⟩
  | askTasks {s : Scene} {id : PolicyId} {execution : ExecutionId}
    (hid : s.tracker.policyId = some id) (hopen : s.tracker.openPanel = some execution) :
    Turn s ⟨s.tracker.onTasks .begin,
      s.asked ++ [.tasks ⟨(id, execution), s.tracker.tasks.ticket, none⟩]⟩
  | askOther (s : Scene) : Turn s { s with asked := s.asked ++ [.other] }
  | takeRuns {s : Scene} {n : Nat} {e : Entry PolicyId Execution}
    (hn : s.asked[n]? = some (.runs e)) (he : e.answer = none)
    (answer : Except ServiceFault (Page Execution)) :
    Turn s ⟨s.tracker.onExecutions (·.finish e.ticket answer),
      s.asked.set n (.runs { e with answer := some answer })⟩
  | takeTasks {s : Scene} {n : Nat} {e : Entry (PolicyId × ExecutionId) Task}
    (hn : s.asked[n]? = some (.tasks e)) (he : e.answer = none)
    (answer : Except ServiceFault (Page Task)) :
    Turn s ⟨s.tracker.takeTasks e.subject.2 e.ticket answer,
      s.asked.set n (.tasks { e with answer := some answer })⟩

theorem Turn.policyId_eq {s t : Scene} (h : Turn s t) :
    t.tracker.policyId = s.tracker.policyId := by
  cases h with
  | openPanel execution =>
    simp only [openPanelOf]
    split <;> rfl
  | _ => rfl

theorem policyId_eq_of_turns {s t : Scene} (h : ReflTransGen Turn s t) :
    t.tracker.policyId = s.tracker.policyId := by
  induction h with
  | refl => rfl
  | tail _ hturn ih => exact hturn.policyId_eq.trans ih

/-- How a call goes on when the reply to its request is there. -/
inductive Awaits (kind : Command) (seen : Tracker) :
    (q : Request) → (q.Reply → Call Tracker Unit) → Prop where
  | runs (hkind : kind.isQuery = false) (id : PolicyId) (page : PageRequest) :
    Awaits kind seen (.listExecutions id page) fun reply =>
      .change (onExecutions (·.finish seen.executions.issued reply)) (.finish ())
  | tasks (hkind : kind.isQuery = false) (id : PolicyId) (execution : ExecutionId)
    (page : PageRequest) :
    Awaits kind seen (.listTasks id execution page) fun reply =>
      .change (Tracker.takeTasks execution seen.tasks.issued reply) (.finish ())
  | other {q : Request} {next : q.Reply → Call Tracker Unit}
    (hq : ∀ answer, asked kind seen q answer = .other)
    (hnext : ∀ reply, next reply = .finish () ∨
      kind.isQuery = false ∧ next reply = dismiss Tracker.refresh) :
    Awaits kind seen q next

theorem asked_runs {kind : Command} (hkind : kind.isQuery = false) (seen : Tracker)
    (id : PolicyId) (page : PageRequest) (answer : Option (Except ServiceFault (Page Execution))) :
    asked kind seen (.listExecutions id page) answer =
      .runs ⟨id, seen.executions.issued, answer⟩ := by
  simp only [asked, hkind, Bool.false_eq_true, if_false]

theorem asked_tasks {kind : Command} (hkind : kind.isQuery = false) (seen : Tracker)
    (id : PolicyId) (execution : ExecutionId) (page : PageRequest)
    (answer : Option (Except ServiceFault (Page Task))) :
    asked kind seen (.listTasks id execution page) answer =
      .tasks ⟨(id, execution), seen.tasks.issued, answer⟩ := by
  simp only [asked, hkind, Bool.false_eq_true, if_false]

theorem asked_query {kind : Command} (hkind : kind.isQuery = true) (seen : Tracker) (q : Request)
    (answer : Option q.Reply) : asked kind seen q answer = .other := by
  cases q <;> simp [asked, hkind]

/-- Where a call on this tracker stops, it has done some turns, the last of which is its request. -/
def Proceeds (kind : Command) (c : Call Tracker Unit) (t : Tracker) : Prop :=
  ∀ asked : List Asked,
    match c.pause t with
    | (.ended _, t') => ReflTransGen Turn ⟨t, asked⟩ ⟨t', asked⟩
    | (.asks q abandon next, t') =>
      abandon = id ∧ Awaits kind t' q next ∧
        ReflTransGen Turn ⟨t, asked⟩ ⟨t', asked ++ [Tracker.asked kind t' q none]⟩

variable {α β : Type} {kind : Command} {c : Call Tracker Unit} {t : Tracker}

theorem dismiss_map (c : Attempt α) (f : Except TrackerFault α → Except TrackerFault β) :
    dismiss (c.map f) = dismiss c :=
  c.map_map f _

theorem proceeds_finish : Proceeds kind (.finish ()) t :=
  fun _ => .refl

theorem proceeds_look {f : Tracker → Attempt α} (h : Proceeds kind (dismiss (f t)) t) :
    Proceeds kind (dismiss (.look f)) t :=
  h

theorem proceeds_change {f : Tracker → Tracker} (hf : ∀ asked, Turn ⟨t, asked⟩ ⟨f t, asked⟩)
    (hc : Proceeds kind c (f t)) : Proceeds kind (.change f c) t := by
  intro asked
  have h := hc asked
  have hpause : (Call.change f c).pause t = c.pause (f t) := rfl
  rw [hpause]
  split <;> rename_i hp
  · rw [hp] at h
    exact .head (hf asked) h
  · rw [hp] at h
    exact ⟨h.1, h.2.1, .head (hf asked) h.2.2⟩

theorem proceeds_send {f : Tracker → Tracker} {q : Request} {next : q.Reply → Call Tracker Unit}
    (hnext : Awaits kind (f t) q next)
    (hf : ∀ asked, Turn ⟨t, asked⟩ ⟨f t, asked ++ [Tracker.asked kind (f t) q none]⟩) :
    Proceeds kind (.change f (.request q next)) t :=
  fun asked => ⟨rfl, hnext, .single (hf asked)⟩

theorem proceeds_refresh (hkind : kind.isQuery = false) (t : Tracker) :
    Proceeds kind (dismiss Tracker.refresh) t := by
  apply proceeds_look
  cases hid : t.policyId with
  | none => exact proceeds_finish
  | some p =>
    apply proceeds_send (.runs hkind p _)
    intro asked
    rw [asked_runs hkind]
    exact .askRuns hid

theorem proceeds_loadTasks (hkind : kind.isQuery = false) (t : Tracker) :
    Proceeds kind (dismiss Tracker.loadTasks) t := by
  apply proceeds_look
  cases hid : t.policyId with
  | none => exact proceeds_finish
  | some p =>
    cases hopen : t.openPanel with
    | none => exact proceeds_finish
    | some e =>
      apply proceeds_send (.tasks hkind p e _)
      intro asked
      rw [asked_tasks hkind]
      exact .askTasks hid hopen

theorem proceeds_toggleTaskPanel (hkind : kind.isQuery = false) (e : ExecutionId) (t : Tracker) :
    Proceeds kind (dismiss (toggleTaskPanel e)) t := by
  apply proceeds_look
  split
  · exact proceeds_change (fun _ => .closePanel _) proceeds_finish
  · apply proceeds_change (fun _ => .openPanel _ e)
    have h := proceeds_loadTasks hkind (t.openPanelOf e)
    rwa [← dismiss_map _ (·.map fun _ => true)] at h

theorem proceeds_requirePolicy {f : PolicyId → Attempt α}
    (h : ∀ id, Proceeds kind (dismiss (f id)) t) :
    Proceeds kind (dismiss (requirePolicy f)) t := by
  apply proceeds_look
  cases t.policyId with
  | none => exact proceeds_finish
  | some id => exact h id

theorem proceeds_forward {q : Request} {next : Except TrackerFault q.Answer → Attempt α}
    (hq : ∀ answer, asked kind t q answer = .other)
    (hnext : ∀ r, dismiss (next r) = .finish () ∨
      kind.isQuery = false ∧ dismiss (next r) = dismiss Tracker.refresh) :
    Proceeds kind (dismiss ((forward q).bind next)) t := by
  intro asked
  refine ⟨rfl, .other hq fun reply => hnext _, .single ?_⟩
  rw [hq]
  exact .askOther _

theorem proceeds_query (hkind : kind.isQuery = true) (q : Request) (t : Tracker) :
    Proceeds kind (dismiss (forward q)) t :=
  proceeds_forward (asked_query hkind t q) fun _ => .inl rfl

theorem proceeds_startRun (hkind : kind.isQuery = false) (dryRun : Bool) (t : Tracker) :
    Proceeds kind (dismiss (Tracker.startRun dryRun)) t := by
  apply proceeds_requirePolicy
  intro id
  apply proceeds_forward (fun _ => rfl)
  rintro (f | execution)
  · exact .inl rfl
  · exact .inr ⟨hkind, dismiss_map _ _⟩

theorem proceeds_abortRun (hkind : kind.isQuery = false) (e : ExecutionId) (t : Tracker) :
    Proceeds kind (dismiss (Tracker.abortRun e)) t := by
  apply proceeds_requirePolicy
  intro id
  apply proceeds_forward (fun _ => rfl)
  rintro (f | -)
  · exact .inl rfl
  · exact .inr ⟨hkind, dismiss_map _ _⟩

theorem proceeds_call (hkind : ∀ policy, kind ≠ .attach policy) (t : Tracker) :
    Proceeds kind kind.call t := by
  cases kind with
  | attach policy => exact absurd rfl (hkind policy)
  | refresh => exact proceeds_refresh rfl t
  | goToPage page => exact proceeds_change (fun _ => .goToPage _ page) (proceeds_refresh rfl _)
  | setPageSize pageSize =>
    exact proceeds_change (fun _ => .setPageSize _ pageSize) (proceeds_refresh rfl _)
  | startRun dryRun => exact proceeds_startRun rfl dryRun t
  | abortRun execution => exact proceeds_abortRun rfl execution t
  | togglePanel execution => exact proceeds_toggleTaskPanel rfl execution t
  | loadTasks => exact proceeds_loadTasks rfl t
  | goToTaskPage page =>
    exact proceeds_change (fun _ => .goToTaskPage _ page) (proceeds_loadTasks rfl _)
  | listExecutions id page => exact proceeds_query rfl _ t
  | listTasks execution page => exact proceeds_requirePolicy fun _ => proceeds_query rfl _ t
  | taskLog execution task => exact proceeds_requirePolicy fun _ => proceeds_query rfl _ t

end TagRetention.Client.Tracker
