import TagRetention.Proofs.Client.LocalCopy
import TagRetention.Proofs.Client.Traffic

/-!
What a load or a mutation that succeeds leaves behind. The document that a mutation writes is its
own effect on the local copy, and the copy afterwards is the policy that is stored.
-/

namespace TagRetention.Client

open Orchestrator

namespace Session

variable {α : Type} {x : Session} {m : Mutation}

def sent (x : Session) (c : Call Orchestrator α) : List Request :=
  c.requests LocalService.service x.client x.service

/-- The client has the policy that is stored under the id. -/
def Mirrors (x : Session) (id : PolicyId) : Prop :=
  x.client.saved = some id ∧
    ∃ p, x.service.policies.get? id = some p ∧ x.client.policy = p.withId id

theorem mirrors_of_load {id : PolicyId} (hok : (x.call load).1 = .ok (some id)) :
    (x.call load).2.Mirrors id ∧ x.service.SamePolicies (x.call load).2.service ∧
      x.sent load = [.projectRetention x.client.project, .getPolicy id] := by
  have hend := load_end LocalService.service x.client x.service
  unfold sent
  rw [requests_load]
  unfold call at hok ⊢
  generalize load.run LocalService.service x.client x.service = r at hend hok
  cases hend with
  | lost hfind => cases hok
  | absent hfind => cases hok
  | unread hfind hread => cases hok
  | done hfind hread =>
    cases hok
    obtain ⟨-, hfound⟩ := LocalService.projectRetention_ok hfind
    obtain ⟨hp, hsame⟩ := LocalService.getPolicy_ok hread
    rw [hfind]
    exact ⟨⟨rfl, _, hsame.policies ▸ hp, rfl⟩, hfound.trans hsame, rfl⟩

theorem not_pending_of_ne (h : (x.call (mutate m)).1 ≠ .error .inProgress) :
    x.client.mutationPending = false := by
  rw [← Bool.not_eq_true]
  intro hpending
  rw [call, run_mutate_pending hpending] at h
  exact h rfl

theorem mirrors_of_mutate (hok : (x.call (mutate m)).1 = .ok ()) (hwrites : x.writes m = true) :
    ∃ id draft, m.Amends x.client.policy draft ∧
      x.sent (mutate m) = [writeRequest x.client.saved draft, .getPolicy id] ∧
      x.service.Stored x.client.saved draft id (x.call (mutate m)).2.service ∧
      (x.call (mutate m)).2.Mirrors id := by
  have hfree : x.client.mutationPending = false := by
    apply not_pending_of_ne
    rw [hok]
    nofun
  obtain ⟨edit, hplan⟩ := exists_edit_of_writes hwrites
  have hend := mutate_end LocalService.service m x.client x.service
  unfold sent
  rw [requests_mutate_of_plan hfree hplan]
  unfold call at hok ⊢
  generalize (mutate m).run LocalService.service x.client x.service = r at hend hok
  cases hend with
  | busy => cases hok
  | refuse => cases hok
  | keep hkeep =>
    rw [hplan] at hkeep
    cases hkeep
  | reject => cases hok
  | unseen => cases hok
  | @done edit' id p w w' hplan' hw hread =>
    rw [hplan] at hplan'
    cases hplan'
    obtain ⟨hp, hsame⟩ := LocalService.getPolicy_ok hread
    refine ⟨id, edit.apply x.client.policy, Mutation.amends_of_plan hplan, ?_,
      (LocalService.write_ok hw).congr hsame, ?_, p, hsame.policies ▸ hp, ?_⟩
    · rw [hw]
      rfl
    all_goals cases m <;> rfl

theorem edit_unchanged {i : Nat} {r current : Rule} (hi : x.client.policy.rules[i]? = some current)
    (hsame : current.same r.normalize = true) :
    x.sent (mutate (.editRule i r)) = [] ∧ (x.call (mutate (.editRule i r))).2 = x ∧
      (x.client.mutationPending = false → (x.call (mutate (.editRule i r))).1 = .ok ()) := by
  have hplan : (Mutation.editRule i r).plan x.client.policy x.client.catalog = .ok none := by
    simp only [Mutation.plan, hi, hsame, if_true]
  refine ⟨requests_mutate_eq_nil (by simp [hplan]), ?_⟩
  unfold call
  cases hpending : x.client.mutationPending with
  | true =>
    rw [run_mutate_pending hpending]
    exact ⟨rfl, fun h => by cases h⟩
  | false =>
    rw [run_mutate_of_plan_none hpending hplan]
    exact ⟨rfl, fun _ => rfl⟩

/-- In any session, whatever came before: a load that finds a policy takes over what is stored; a
mutation that succeeds and wrote has sent one document, its effect on the copy that the client had,
then has loaded what became of it; and an edit that leaves the rule as it is leaves no trace. -/
theorem success_mirrored (x : Session) :
    (∀ id, (x.call load).1 = .ok (some id) →
      (x.call load).2.Mirrors id ∧ x.service.SamePolicies (x.call load).2.service ∧
        x.sent load = [.projectRetention x.client.project, .getPolicy id]) ∧
      (∀ m, (x.call (mutate m)).1 = .ok () → x.writes m = true →
        ∃ id draft, m.Amends x.client.policy draft ∧
          x.sent (mutate m) = [writeRequest x.client.saved draft, .getPolicy id] ∧
          x.service.Stored x.client.saved draft id (x.call (mutate m)).2.service ∧
          (x.call (mutate m)).2.Mirrors id) ∧
      ∀ i r current, x.client.policy.rules[i]? = some current →
        current.same r.normalize = true →
        x.sent (mutate (.editRule i r)) = [] ∧ (x.call (mutate (.editRule i r))).2 = x ∧
          (x.client.mutationPending = false → (x.call (mutate (.editRule i r))).1 = .ok ()) :=
  ⟨fun _ hok => mirrors_of_load hok, fun _ hok hwrites => mirrors_of_mutate hok hwrites,
    fun _ _ _ hi hsame => edit_unchanged hi hsame⟩

theorem success_mirrored_of_first_rule :
    let x := (new 1).after [.load, .loadCatalog]
    let m := Mutation.addRule (.keepAlways "library/* ")
    (x.call (mutate m)).1 = .ok () ∧ x.writes m = true ∧
      ∃ id draft, m.Amends x.client.policy draft ∧
        x.sent (mutate m) = [writeRequest x.client.saved draft, .getPolicy id] ∧
        x.service.Stored x.client.saved draft id (x.call (mutate m)).2.service ∧
        (x.call (mutate m)).2.Mirrors id := by
  intro x m
  have hok : (x.call (mutate m)).1 = .ok () := by decide +kernel
  have hwrites : x.writes m = true := by decide +kernel
  exact ⟨hok, hwrites, (success_mirrored x).2.1 m hok hwrites⟩

end Session

end TagRetention.Client
