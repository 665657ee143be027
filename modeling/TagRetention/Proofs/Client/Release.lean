import TagRetention.Proofs.Client.Pause

/-!
Calls that hold a part of the object. It stays as it is while the call goes on, and is let go once,
when the call ends or is given up.
-/

namespace TagRetention.Client.Call

variable {σ α β γ : Type} {view : σ → γ} {v : γ}

/-- The call sends nothing and does not change this view of the object. -/
def Silent (view : σ → γ) : Call σ α → Prop
  | .finish _ => True
  | .act change next => (∀ s, view (change s) = view s) ∧ ∀ s, (next s).Silent view
  | .ask _ _ _ => False

/-- Up to some change that gives the view the value `v` the call does not change it, and after that
it is silent; given up before, it gives it that value too. -/
def Releases (view : σ → γ) (v : γ) : Call σ α → Prop
  | .finish _ => False
  | .act change next =>
    ((∀ s, view (change s) = view s) ∧ ∀ s, (next s).Releases view v) ∨
      ((∀ s, view (change s) = v) ∧ ∀ s, (next s).Silent view)
  | .ask _ abandon next => (∀ s, view (abandon s) = v) ∧ ∀ r, (next r).Releases view v

theorem Silent.bind {c : Call σ α} {f : α → Call σ β} (hc : c.Silent view)
    (hf : ∀ a, (f a).Silent view) : (c.bind f).Silent view := by
  induction c with
  | finish a => exact hf a
  | act change next ih => exact ⟨hc.1, fun s => ih s (hc.2 s)⟩
  | ask q abandon next ih => exact hc.elim

theorem Silent.releasing {c : Call σ α} {release : σ → σ} (hc : c.Silent view)
    (hrelease : ∀ s, view (release s) = view s) : (c.releasing release).Silent view := by
  induction c with
  | finish a => exact ⟨hrelease, fun _ => trivial⟩
  | act change next ih => exact ⟨hc.1, fun s => ih s (hc.2 s)⟩
  | ask q abandon next ih => exact hc.elim

theorem Silent.pause {c : Call σ α} (hc : c.Silent view) (s : σ) :
    ∃ a s', c.pause s = (.ended a, s') ∧ view s' = view s := by
  induction c generalizing s with
  | finish a => exact ⟨a, s, rfl, rfl⟩
  | act change next ih =>
    obtain ⟨a, s', hp, hs'⟩ := ih s (hc.2 s) (change s)
    exact ⟨a, s', hp, hs'.trans (hc.1 s)⟩
  | ask q abandon next ih => exact hc.elim

theorem Keeps.releases {c : Call σ α} {release : σ → σ} (hc : c.Keeps view)
    (hrelease : ∀ s, view (release s) = v) : (c.releasing release).Releases view v := by
  induction c with
  | finish a => exact .inr ⟨hrelease, fun _ => trivial⟩
  | act change next ih => exact .inl ⟨hc.1, fun s => ih s (hc.2 s)⟩
  | ask q abandon next ih => exact ⟨fun s => hrelease (abandon s), fun r => ih r (hc.2 r)⟩

theorem Releases.bind {c : Call σ α} {f : α → Call σ β} (hc : c.Releases view v)
    (hf : ∀ a, (f a).Silent view) : (c.bind f).Releases view v := by
  induction c with
  | finish a => exact hc.elim
  | act change next ih =>
    rcases hc with ⟨hkeep, hnext⟩ | ⟨hset, hnext⟩
    · exact .inl ⟨hkeep, fun s => ih s (hnext s)⟩
    · exact .inr ⟨hset, fun s => (hnext s).bind hf⟩
  | ask q abandon next ih => exact ⟨hc.1, fun r => ih r (hc.2 r)⟩

theorem Releases.map {c : Call σ α} (hc : c.Releases view v) (f : α → β) :
    (c.map f).Releases view v :=
  hc.bind fun _ => trivial

theorem Releases.releasing {c : Call σ α} {release : σ → σ} (hc : c.Releases view v)
    (hrelease : ∀ s, view (release s) = view s) : (c.releasing release).Releases view v := by
  induction c with
  | finish a => exact hc.elim
  | act change next ih =>
    rcases hc with ⟨hkeep, hnext⟩ | ⟨hset, hnext⟩
    · exact .inl ⟨hkeep, fun s => ih s (hnext s)⟩
    · exact .inr ⟨hset, fun s => (hnext s).releasing hrelease⟩
  | ask q abandon next ih =>
    exact ⟨fun s => (hrelease _).trans (hc.1 s), fun r => ih r (hc.2 r)⟩

theorem Releases.ended {c : Call σ α} (hc : c.Releases view v) {s s' : σ} {a : α}
    (h : c.pause s = (.ended a, s')) : view s' = v := by
  induction c generalizing s with
  | finish a => exact hc.elim
  | act change next ih =>
    rcases hc with ⟨-, hnext⟩ | ⟨hset, hnext⟩
    · exact ih s (hnext s) h
    · obtain ⟨b, t, hp, ht⟩ := (hnext s).pause (change s)
      cases hp.symm.trans h
      exact ht.trans (hset s)
  | ask q abandon next ih => cases h

theorem Releases.asks {c : Call σ α} (hc : c.Releases view v) {s s' : σ} {q : Request}
    {abandon : σ → σ} {next : q.Reply → Call σ α} (h : c.pause s = (.asks q abandon next, s')) :
    view s' = view s ∧ (Call.ask q abandon next).Releases view v := by
  induction c generalizing s with
  | finish a => exact hc.elim
  | act change next ih =>
    rcases hc with ⟨hkeep, hnext⟩ | ⟨-, hnext⟩
    · obtain ⟨hview, hrest⟩ := ih s (hnext s) h
      exact ⟨hview.trans (hkeep s), hrest⟩
    · obtain ⟨b, t, hp, -⟩ := (hnext s).pause (change s)
      cases hp.symm.trans h
  | ask q abandon next ih =>
    cases h
    exact ⟨rfl, hc⟩

end TagRetention.Client.Call
