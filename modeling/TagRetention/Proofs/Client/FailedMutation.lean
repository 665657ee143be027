import TagRetention.Proofs.Client.Mirror
import TagRetention.Proofs.Client.OneMutation

/-!
What a mutation that fails leaves behind. The fault tells how far it came: it was refused before
anything was sent, or its write was turned down, or the write is stored but was not seen again.
-/

namespace TagRetention.Client

theorem Mutation.reported_ne_inProgress (m : Mutation) (f : ServiceFault) :
    (Except.error (m.reported (.service f)) : Except MutationFault Unit) ≠ .error .inProgress := by
  unfold reported
  split <;> nofun

namespace Session

open Orchestrator

variable {x : Session} {m : Mutation} {f : MutationFault}

/-- What is left by a mutation that ends in `y` with the fault. -/
def Failed (x : Session) (m : Mutation) (y : Session) : MutationFault → Prop
  | .inProgress => x.sent (mutate m) = [] ∧ y = x
  | .invalidRule _ | .noRule _ =>
    x.sent (mutate m) = [] ∧ y = { x with client := x.client.setPending false }
  | .service _ | .submission _ =>
    (∃ q, x.sent (mutate m) = [q] ∧ q.document?.isSome = true) ∧
      y.client = x.client.atRest ∧ x.service.SamePolicies y.service
  | .refresh _ =>
    ∃ id draft, m.Amends x.client.policy draft ∧
      x.sent (mutate m) = [writeRequest x.client.saved draft, .getPolicy id] ∧
      x.service.Stored x.client.saved draft id y.service ∧
      y.client = (x.client.noted id draft).atRest ∧ y.client.saved = some id ∧
      y.client.editingSchedule = x.client.editingSchedule

theorem failed_of_refusal {r : MutationFault} {y : Session}
    (hplan : m.plan x.client.policy x.client.catalog = .error r)
    (hy : y = { x with client := x.client.setPending false }) : x.Failed m y r := by
  have hsent : x.sent (mutate m) = [] := requests_mutate_eq_nil (by simp [hplan])
  rcases m.plan_cases x.client.policy x.client.catalog with ⟨e, hc⟩ | ⟨i, hc⟩ | hc | hc <;>
    rw [hplan] at hc <;> cases hc
  · exact ⟨hsent, hy⟩
  · exact ⟨hsent, hy⟩

theorem sent_of_plan {edit : Edit} {r : Except ServiceFault PolicyId} {w : LocalService}
    (hfree : x.client.mutationPending = false)
    (hplan : m.plan x.client.policy x.client.catalog = .ok (some edit))
    (hw : write LocalService.service x.client.saved (edit.apply x.client.policy) x.service = (r, w)) :
    x.sent (mutate m) =
      writeRequest x.client.saved (edit.apply x.client.policy) :: lookups r.toOption := by
  rw [sent, requests_mutate_of_plan hfree hplan, hw]

theorem editingSchedule_noted (id : PolicyId) (draft : Policy) (o : Orchestrator) :
    (o.noted id draft).editingSchedule = o.editingSchedule := by
  unfold noted
  cases o.saved <;> rfl

/-- Every fault but the one of a mutation that came too early tells what became of the change. The
mutation is over after each of them; `loading` is up only if it was and nothing was sent. -/
theorem failed_mutation (x : Session) (m : Mutation) (f : MutationFault)
    (herr : (x.call (mutate m)).1 = .error f) :
    x.Failed m (x.call (mutate m)).2 f ∧
      (f ≠ .inProgress →
        (x.call (mutate m)).2.client.mutationPending = false ∧
          (x.call (mutate m)).2.client.loading =
            (x.client.loading && (x.sent (mutate m)).isEmpty)) := by
  have hend := mutate_end LocalService.service m x.client x.service
  generalize hrun : (mutate m).run LocalService.service x.client x.service = r at hend
  have hcall : x.call (mutate m) = (r.1, ⟨r.2.1, r.2.2⟩) := by
    simp only [call, hrun]
  have hfree : r.1 ≠ .error .inProgress → x.client.mutationPending = false := by
    intro h
    apply not_pending_of_ne
    rwa [hcall]
  rw [hcall] at herr ⊢
  cases hend with
  | busy hpending =>
    cases herr
    exact ⟨⟨requests_mutate_pending hpending, rfl⟩, fun h => absurd rfl h⟩
  | refuse hplan =>
    cases herr
    have hsent : x.sent (mutate m) = [] := requests_mutate_eq_nil (by simp [hplan])
    rw [hsent]
    exact ⟨failed_of_refusal hplan rfl, fun _ => ⟨rfl, (Bool.and_true _).symm⟩⟩
  | keep => cases herr
  | @reject edit e w hplan hw =>
    cases herr
    have hsent := sent_of_plan (hfree (m.reported_ne_inProgress e)) hplan hw
    refine ⟨?_, fun _ => ⟨rfl, ?_⟩⟩
    · have hdocument := document_writeRequest x.client.saved (edit.apply x.client.policy)
      have hone : ∃ q, x.sent (mutate m) = [q] ∧ q.document?.isSome = true :=
        ⟨_, hsent, by rw [hdocument]; rfl⟩
      unfold Mutation.reported
      split
      · exact ⟨hone, rfl, LocalService.write_error hw⟩
      · exact ⟨hone, rfl, LocalService.write_error hw⟩
    · rw [hsent]
      exact (Bool.and_false _).symm
  | @unseen edit id e w w' hplan hw hread =>
    cases herr
    have hsent := sent_of_plan (hfree fun h => by cases h) hplan hw
    have hstored := (LocalService.write_ok hw).congr (LocalService.samePolicies_of_error hread)
    refine ⟨⟨id, _, Mutation.amends_of_plan hplan, hsent, hstored, rfl, ?_, ?_⟩, fun _ => ⟨rfl, ?_⟩⟩
    · exact hstored.saved_noted
    · exact editingSchedule_noted id _ x.client
    · rw [hsent]
      exact (Bool.and_false _).symm
  | done => cases herr

theorem failed_mutation_of_unseen_update :
    let x := (new 1).after
      [.load, .loadCatalog, .mutate (.addRule (.keepAlways "library/*")), .failReads true]
    let m := Mutation.toggleRule 0 true
    let f := MutationFault.refresh (.rejected 500 "unavailable")
    (x.call (mutate m)).1 = .error f ∧ x.Failed m (x.call (mutate m)).2 f ∧
      (x.call (mutate m)).2.client.mutationPending = false := by
  intro x m f
  have herr : (x.call (mutate m)).1 = .error f := by decide +kernel
  obtain ⟨hfailed, hflags⟩ := failed_mutation x m f herr
  exact ⟨herr, hfailed, (hflags nofun).1⟩

/-- While a load waits for its answer, a mutation that is refused leaves `loading` up. -/
theorem refused_while_loading :
    let x : InUse := (Shared.new (.new 1)).after Command.call [.start .load]
    let y := (Session.mk x.object .empty).call (mutate (.toggleRule 0 true))
    y.1 = .error (.noRule 0) ∧ y.2.client.mutationPending = false ∧ y.2.client.loading = true :=
  ⟨rfl, rfl, rfl⟩

end Session

end TagRetention.Client
