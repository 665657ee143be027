import TagRetention.Proofs.Api.Answers
import TagRetention.Proofs.Store.Change

/-!
How handlers fail. A handler fails cleanly if it fails before it changes the store, or at the change
itself; and only a failure is answered with a status of failure.
-/

namespace TagRetention.Api

open Handler

variable {σ α β : Type} {c : Setting σ} {now : Instant} {s : State σ}

/-- If the handler fails, the store is as it was. -/
def FailsClean (h : Answer σ α) (now : Instant) (s : State σ) : Prop :=
  ∀ f, (h.run now s).1 = .error f → (h.run now s).2.store = s.store

theorem failsClean_of_keeps {h : Answer σ α} (hk : ∀ P, Keeps P h) : FailsClean h now s :=
  fun _ _ => hk (· = s.store) now s rfl

theorem failsClean_answer (r : Except ApiFault α) : FailsClean (.answer r : Answer σ α) now s :=
  fun _ _ => rfl

theorem Performs.failsClean {f : Instant → Store → Except StoreFault α × Store}
    {op : Store.Operation} (hf : Performs f op) : FailsClean (onStore f : Answer σ α) now s := by
  obtain ⟨g, hg⟩ := hf
  intro e he
  rw [run_onStore] at he ⊢
  cases hr : (f now s.store).1 with
  | ok a =>
    rw [hr] at he
    cases he
  | error fault =>
    have hrun : (op.run now s.store).1 = .error fault := by
      rw [hg, Store.reply, hr]
      rfl
    have hkept := Store.run_of_error hrun
    rw [hg] at hkept
    exact hkept

theorem FailsClean.orElse_of_keeps {h : Answer σ α} {f : α → Answer σ β} (hk : ∀ P, Keeps P h)
    (hf : ∀ a s', h.run now s = (.ok a, s') → s'.store = s.store → FailsClean (f a) now s') :
    FailsClean (h.orElse f) now s := by
  intro e he
  have hstore : (h.run now s).2.store = s.store := hk (· = s.store) now s rfl
  rw [run_orElse] at he ⊢
  cases hr : h.run now s with
  | mk result s' =>
    rw [hr] at he hstore
    cases result with
    | error _ => exact hstore
    | ok a => exact (hf a s' hr hstore e he).trans hstore

theorem FailsClean.orElse_of_succeeds {h : Answer σ α} {f : α → Answer σ β}
    (hh : FailsClean h now s)
    (hf : ∀ a s', h.run now s = (.ok a, s') → ∃ b, ((f a).run now s').1 = .ok b) :
    FailsClean (h.orElse f) now s := by
  intro e he
  rw [run_orElse] at he ⊢
  cases hr : h.run now s with
  | mk result s' =>
    rw [hr] at he
    cases result with
    | error fault =>
      have hkept := hh fault (by rw [hr])
      rw [hr] at hkept
      exact hkept
    | ok a =>
      obtain ⟨b, hb⟩ := hf a s' hr
      rw [hb] at he
      cases he

theorem FailsClean.ok {h : Answer σ α} (hh : FailsClean h now s) (f : α → Response) :
    FailsClean (ok h f) now s :=
  hh.orElse_of_succeeds fun a _ _ => ⟨f a, rfl⟩

theorem FailsClean.guarded {h : Answer σ α} (check : Except Fault Unit)
    (hh : FailsClean h now s) : FailsClean (guarded check h) now s := by
  cases check with
  | error f => exact failsClean_answer _
  | ok _ => exact hh

/-- What the handler answers without an error has a status of success. -/
def Succeeds (h : Answer σ Response) : Prop :=
  ∀ now s r, (h.run now s).1 = .ok r → r.status < 400

theorem succeeds_answer {r : Except ApiFault Response} (hr : ∀ a, r = .ok a → a.status < 400) :
    Succeeds (.answer r : Answer σ Response) :=
  fun _ _ a h => hr a h

theorem succeeds_orElse {h : Answer σ α} {f : α → Answer σ Response} (hf : ∀ a, Succeeds (f a)) :
    Succeeds (h.orElse f) := by
  intro now s r hr
  rw [run_orElse] at hr
  cases hh : h.run now s with
  | mk result s' =>
    rw [hh] at hr
    cases result with
    | error e => cases hr
    | ok a => exact hf a now s' r hr

theorem succeeds_ok {f : α → Response} (hf : ∀ a, (f a).status < 400) (h : Answer σ α) :
    Succeeds (ok h f) := by
  apply succeeds_orElse
  intro a
  apply succeeds_answer
  rintro _ ⟨⟩
  exact hf a

theorem succeeds_guarded {h : Answer σ Response} (check : Except Fault Unit) (hh : Succeeds h) :
    Succeeds (guarded check h) := by
  cases check with
  | error f =>
    apply succeeds_answer
    rintro _ ⟨⟩
  | ok _ => exact hh

theorem succeeds_handle (c : Setting σ) (call : Call) : Succeeds (handle c call) := by
  have h200 : (200 : Nat) < 400 := by decide
  have h201 : (201 : Nat) < 400 := by decide
  cases call with
  | health | catalog =>
    apply succeeds_answer
    rintro _ ⟨⟩
    exact h200
  | projectRetention | getPolicy => exact succeeds_ok (fun _ => h200) _
  | createPolicy p => exact succeeds_guarded _ (succeeds_ok (fun _ => h201) _)
  | updatePolicy id p => exact succeeds_guarded _ (succeeds_ok (fun _ => h200) _)
  | trigger id dryRun => exact succeeds_ok (fun _ => h201) _
  | listExecutions | listTasks | taskLog | report =>
    apply succeeds_orElse
    intro _
    exact succeeds_ok (fun _ => h200) _
  | act id execution action =>
    rw [handle]
    split
    · exact succeeds_ok (fun _ => h200) _
    · apply succeeds_answer
      rintro _ ⟨⟩

theorem serve_failed {r : Request} (h : 400 ≤ ((serve c r).run now s).1.status) :
    (∃ refusal, callOf r = .error refusal ∧ ((serve c r).run now s).2 = s) ∨
      ∃ call f, callOf r = .ok call ∧ ((handle c call).run now s).1 = .error f ∧
        ((serve c r).run now s).2 = ((handle c call).run now s).2 := by
  cases hc : callOf r with
  | error refusal => exact .inl ⟨refusal, rfl, by rw [serve_of_refused hc]⟩
  | ok call =>
    rw [serve_of_call hc, Request.status_shown] at h
    rw [serve_of_call hc]
    cases hr : ((handle c call).run now s).1 with
    | error f => exact .inr ⟨call, f, rfl, hr, rfl⟩
    | ok response =>
      rw [hr] at h
      exact absurd h (Nat.not_le.mpr (succeeds_handle c call now s response hr))

end TagRetention.Api
