import TagRetention.Client.Orchestrator

/-!
How the calls of an orchestrator end when they run on their own, against any service. A mutation is
refused before it asks for anything, or its write is turned down, or it is written and then seen
again or not.
-/

namespace TagRetention.Client

variable {σ α β S : Type}

namespace Call

theorem run_bind (service : Service S) (c : Call σ α) (f : α → Call σ β) (s : σ) (w : S) :
    (c.bind f).run service s w =
      (f (c.run service s w).1).run service (c.run service s w).2.1 (c.run service s w).2.2 := by
  induction c generalizing s w with
  | finish a => rfl
  | act change next ih => exact ih s (change s) w
  | ask q abandon next ih => exact ih _ s _

theorem run_releasing (service : Service S) (release : σ → σ) (c : Call σ α) (s : σ) (w : S) :
    (c.releasing release).run service s w =
      ((c.run service s w).1, release (c.run service s w).2.1, (c.run service s w).2.2) := by
  induction c generalizing s w with
  | finish a => rfl
  | act change next ih => exact ih s (change s) w
  | ask q abandon next ih => exact ih _ s _

end Call

namespace Orchestrator

variable {service : Service S} {m : Mutation} {o : Orchestrator} {w : S}

/-- The write of a draft: it creates the policy that is not saved yet, under an id of the service. -/
def write (service : Service S) (saved : Option PolicyId) (draft : Policy) (w : S) :
    Except ServiceFault PolicyId × S :=
  match saved with
  | none => service (.createPolicy draft) w
  | some id => ((service (.updatePolicy id draft) w).1.map fun _ => id,
      (service (.updatePolicy id draft) w).2)

/-- What is known after the write alone: a policy that was created, but not what an update made. -/
def noted (id : PolicyId) (draft : Policy) (o : Orchestrator) : Orchestrator :=
  match o.saved with
  | none => o.adopt id draft
  | some _ => o

def atRest (o : Orchestrator) : Orchestrator :=
  { o with loading := false, mutationPending := false }

theorem adopt_noted (id : PolicyId) (draft p : Policy) (o : Orchestrator) :
    (o.noted id draft).adopt id p = o.adopt id p := by
  unfold noted
  cases o.saved <;> rfl

theorem run_refresh_error {id : PolicyId} {f : ServiceFault} {w' : S}
    (h : service (.getPolicy id) w = (.error f, w')) (o : Orchestrator) :
    (refresh id).run service o w = (.error (.refresh f), o, w') := by
  simp only [refresh, reload, Call.map, Call.run_bind, Call.request, Call.run, h]
  rfl

theorem run_refresh_ok {id : PolicyId} {p : Policy} {w' : S}
    (h : service (.getPolicy id) w = (.ok p, w')) (o : Orchestrator) :
    (refresh id).run service o w = (.ok (), o.adopt id p, w') := by
  simp only [refresh, reload, Call.map, Call.run_bind, Call.request, Call.run, h]
  rfl

/-- The ends of a load. -/
inductive LoadEnd (service : Service S) (o : Orchestrator) (w : S) :
    Except MutationFault (Option PolicyId) × Orchestrator × S → Prop where
  | lost {f : ServiceFault} {w' : S}
    (hfind : service (.projectRetention o.project) w = (.error f, w')) :
    LoadEnd service o w (.error (.service f), o.setLoading false, w')
  | absent {w' : S} (hfind : service (.projectRetention o.project) w = (.ok none, w')) :
    LoadEnd service o w (.ok none, o.forget.setLoading false, w')
  | unread {id : PolicyId} {f : ServiceFault} {w' w'' : S}
    (hfind : service (.projectRetention o.project) w = (.ok (some id), w'))
    (hread : service (.getPolicy id) w' = (.error f, w'')) :
    LoadEnd service o w (.error (.service f), o.setLoading false, w'')
  | done {id : PolicyId} {p : Policy} {w' w'' : S}
    (hfind : service (.projectRetention o.project) w = (.ok (some id), w'))
    (hread : service (.getPolicy id) w' = (.ok p, w'')) :
    LoadEnd service o w (.ok (some id), (o.adopt id p).setLoading false, w'')

theorem load_end (service : Service S) (o : Orchestrator) (w : S) :
    LoadEnd service o w (load.run service o w) := by
  simp only [load, whileLoading, reloadProject, reload, Call.look, Call.change, Call.request,
    Call.run, Call.run_releasing, Call.run_bind, id_eq]
  have hproject : (setLoading true o).project = o.project := rfl
  rw [hproject]
  rcases hfind : service (.projectRetention o.project) w with ⟨f | found, w'⟩
  · exact .lost hfind
  · cases found with
    | none => exact .absent hfind
    | some id =>
      simp only [Call.run]
      rcases hread : service (.getPolicy id) w' with ⟨f | p, w''⟩
      · exact .unread hfind hread
      · exact .done hfind hread

/-- The ends of a call that writes a draft and loads it again. -/
inductive PersistEnd (service : Service S) (draft : Policy) (o : Orchestrator) (w : S) :
    Except MutationFault Unit × Orchestrator × S → Prop where
  | reject {f : ServiceFault} {w' : S} (hw : write service o.saved draft w = (.error f, w')) :
    PersistEnd service draft o w (.error (.service f), o.setLoading false, w')
  | unseen {id : PolicyId} {f : ServiceFault} {w' w'' : S}
    (hw : write service o.saved draft w = (.ok id, w'))
    (hread : service (.getPolicy id) w' = (.error f, w'')) :
    PersistEnd service draft o w
      (.error (.refresh f), (o.noted id draft).setLoading false, w'')
  | done {id : PolicyId} {p : Policy} {w' w'' : S}
    (hw : write service o.saved draft w = (.ok id, w'))
    (hread : service (.getPolicy id) w' = (.ok p, w'')) :
    PersistEnd service draft o w (.ok (), (o.adopt id p).setLoading false, w'')

theorem persist_end (service : Service S) (draft : Policy) (o : Orchestrator) (w : S) :
    PersistEnd service draft o w ((persist draft).run service o w) := by
  simp only [persist, whileLoading, Call.look, Call.change, Call.run, Call.run_releasing, id_eq]
  -- what follows on the write, once its answer is known
  have hnext (id : PolicyId) (o' : Orchestrator) (w' : S)
      (hw : write service o.saved draft w = (.ok id, w'))
      (ho : setLoading false o' = (o.noted id draft).setLoading false) :
      PersistEnd service draft o w
        (((refresh id).run service o' w').1, setLoading false ((refresh id).run service o' w').2.1,
          ((refresh id).run service o' w').2.2) := by
    rcases hread : service (.getPolicy id) w' with ⟨f | p, w''⟩
    · rw [run_refresh_error hread, ho]
      exact .unseen hw hread
    · rw [run_refresh_ok hread]
      have hadopt : setLoading false (o'.adopt id p) = (o.adopt id p).setLoading false := by
        have := congrArg (adopt id p) ho
        rw [← adopt_noted id draft p o]
        exact this
      rw [hadopt]
      exact .done hw hread
  cases hs : (setLoading true o).saved with
  | none =>
    have hsaved : o.saved = none := hs
    rcases hq : service (.createPolicy draft) w with ⟨f | id, w'⟩
    · simp only [Call.request, Call.run, hq]
      exact .reject (by simp only [write, hsaved, hq])
    · simp only [Call.request, Call.run, hq]
      exact hnext id _ w' (by simp only [write, hsaved, hq]) (by simp only [noted, hsaved]; rfl)
  | some id =>
    have hsaved : o.saved = some id := hs
    rcases hq : service (.updatePolicy id draft) w with ⟨f | u, w'⟩
    · simp only [Call.request, Call.run, hq]
      exact .reject (by simp only [write, hsaved, hq]; rfl)
    · simp only [Call.request, Call.run, hq]
      exact hnext id _ w' (by simp only [write, hsaved, hq]; rfl)
        (by simp only [noted, hsaved]; rfl)

end Orchestrator

namespace Mutation

/-- How a fault is reported: the editor of a rule gets a message key for it. -/
def reported (m : Mutation) (f : MutationFault) : MutationFault :=
  if m.submitsRule then f.ofSubmission else f

/-- A trigger that is saved closes the editor of the schedule. -/
def closing (m : Mutation) (o : Orchestrator) : Orchestrator :=
  match m with
  | .setTrigger _ => o.setEditing false
  | _ => o

theorem reported_refresh (m : Mutation) (f : ServiceFault) :
    m.reported (.refresh f) = .refresh f := by
  unfold reported
  split <;> rfl

end Mutation

namespace Orchestrator

variable {service : Service S} {m : Mutation} {draft : Policy} {o o' : Orchestrator} {w w' : S}

/-- The ends of a mutation. -/
inductive MutationEnd (service : Service S) (m : Mutation) (o : Orchestrator) (w : S) :
    Except MutationFault Unit × Orchestrator × S → Prop where
  | busy (hpending : o.mutationPending = true) : MutationEnd service m o w (.error .inProgress, o, w)
  | refuse {f : MutationFault} (hplan : m.plan o.policy o.catalog = .error f) :
    MutationEnd service m o w (.error f, o.setPending false, w)
  | keep (hplan : m.plan o.policy o.catalog = .ok none) :
    MutationEnd service m o w (.ok (), o.setPending false, w)
  | reject {edit : Edit} {f : ServiceFault} {w' : S}
    (hplan : m.plan o.policy o.catalog = .ok (some edit))
    (hw : write service o.saved (edit.apply o.policy) w = (.error f, w')) :
    MutationEnd service m o w (.error (m.reported (.service f)), o.atRest, w')
  | unseen {edit : Edit} {id : PolicyId} {f : ServiceFault} {w' w'' : S}
    (hplan : m.plan o.policy o.catalog = .ok (some edit))
    (hw : write service o.saved (edit.apply o.policy) w = (.ok id, w'))
    (hread : service (.getPolicy id) w' = (.error f, w'')) :
    MutationEnd service m o w
      (.error (.refresh f), (o.noted id (edit.apply o.policy)).atRest, w'')
  | done {edit : Edit} {id : PolicyId} {p : Policy} {w' w'' : S}
    (hplan : m.plan o.policy o.catalog = .ok (some edit))
    (hw : write service o.saved (edit.apply o.policy) w = (.ok id, w'))
    (hread : service (.getPolicy id) w' = (.ok p, w'')) :
    MutationEnd service m o w (.ok (), m.closing (o.adopt id p).atRest, w'')

theorem run_carryOut_error {f : MutationFault}
    (h : (persist draft).run service o w = (.error f, o', w')) :
    (carryOut m draft).run service o w = (.error (m.reported f), o', w') := by
  rw [carryOut, Call.run_bind, h]
  cases m <;> rfl

theorem run_carryOut_ok (h : (persist draft).run service o w = (.ok (), o', w')) :
    (carryOut m draft).run service o w = (.ok (), m.closing o', w') := by
  rw [carryOut, Call.run_bind, h]
  cases m <;> rfl

theorem noted_atRest (id : PolicyId) (draft : Policy) (o : Orchestrator) :
    setPending false (((setPending true o).noted id draft).setLoading false) =
      (o.noted id draft).atRest := by
  obtain ⟨project, saved, policy, catalog, editing, loading, pending⟩ := o
  cases saved <;> rfl

theorem closing_atRest (m : Mutation) (id : PolicyId) (p : Policy) (o : Orchestrator) :
    setPending false (m.closing (((setPending true o).adopt id p).setLoading false)) =
      m.closing (o.adopt id p).atRest := by
  cases m <;> rfl

theorem mutate_end (service : Service S) (m : Mutation) (o : Orchestrator) (w : S) :
    MutationEnd service m o w ((mutate m).run service o w) := by
  unfold mutate
  simp only [Call.look, Call.run, id_eq]
  split
  · rename_i hpending
    exact .busy hpending
  · simp only [Call.change, Call.run, Call.run_releasing]
    cases hplan : m.plan o.policy o.catalog with
    | error f => exact .refuse hplan
    | ok edit =>
      cases edit with
      | none => exact .keep hplan
      | some edit =>
        have hend := persist_end service (edit.apply o.policy) (setPending true o) w
        generalize hrun : (persist (edit.apply o.policy)).run service (setPending true o) w = r
          at hend
        cases hend with
        | reject hw =>
          rw [run_carryOut_error hrun]
          exact .reject hplan hw
        | unseen hw hread =>
          rw [run_carryOut_error hrun, m.reported_refresh]
          dsimp only
          rw [noted_atRest]
          exact .unseen hplan hw hread
        | done hw hread =>
          rw [run_carryOut_ok hrun]
          dsimp only
          rw [closing_atRest]
          exact .done hplan hw hread

end Orchestrator

end TagRetention.Client
