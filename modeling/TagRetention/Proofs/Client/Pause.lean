import TagRetention.Client.Call

/-!
How far a call goes on its own: to its end or to its next request. What is left of the object as it
is by every change that a call makes is so left by each part of it.
-/

namespace TagRetention.Client

variable {σ α β γ : Type}

/-- Where a call stops. -/
inductive Pause (σ α : Type) where
  | ended (a : α)
  | asks (q : Request) (abandon : σ → σ) (next : q.Reply → Call σ α)

namespace Call

def pause : Call σ α → σ → Pause σ α × σ
  | .finish a, s => (.ended a, s)
  | .act change next, s => (next s).pause (change s)
  | .ask q abandon next, s => (.asks q abandon next, s)

/-- Nothing that the call does, also when it is given up, changes this view of the object. -/
def Keeps (view : σ → γ) : Call σ α → Prop
  | .finish _ => True
  | .act change next => (∀ s, view (change s) = view s) ∧ ∀ s, (next s).Keeps view
  | .ask _ abandon next => (∀ s, view (abandon s) = view s) ∧ ∀ r, (next r).Keeps view

theorem map_map (c : Call σ α) (f : α → β) (g : β → γ) : (c.map f).map g = c.map (g ∘ f) := by
  simp only [map]
  induction c with
  | finish a => rfl
  | act change next ih => simp only [bind, ih]
  | ask q abandon next ih => simp only [bind, ih]

variable {view : σ → γ}

theorem keeps_look {next : σ → Call σ α} (h : ∀ s, (next s).Keeps view) :
    (look next).Keeps view :=
  ⟨fun _ => rfl, h⟩

theorem keeps_change {f : σ → σ} {c : Call σ α} (hf : ∀ s, view (f s) = view s)
    (hc : c.Keeps view) : (change f c).Keeps view :=
  ⟨hf, fun _ => hc⟩

theorem keeps_request {q : Request} {next : q.Reply → Call σ α} (h : ∀ r, (next r).Keeps view) :
    (request q next).Keeps view :=
  ⟨fun _ => rfl, h⟩

theorem Keeps.bind {c : Call σ α} {f : α → Call σ β} (hc : c.Keeps view)
    (hf : ∀ a, (f a).Keeps view) : (c.bind f).Keeps view := by
  induction c with
  | finish a => exact hf a
  | act change next ih => exact ⟨hc.1, fun s => ih s (hc.2 s)⟩
  | ask q abandon next ih => exact ⟨hc.1, fun r => ih r (hc.2 r)⟩

theorem Keeps.map {c : Call σ α} (hc : c.Keeps view) (f : α → β) : (c.map f).Keeps view :=
  hc.bind fun _ => trivial

theorem Keeps.releasing {c : Call σ α} {release : σ → σ} (hc : c.Keeps view)
    (hrelease : ∀ s, view (release s) = view s) : (c.releasing release).Keeps view := by
  induction c with
  | finish a => exact ⟨hrelease, fun _ => trivial⟩
  | act change next ih => exact ⟨hc.1, fun s => ih s (hc.2 s)⟩
  | ask q abandon next ih =>
    exact ⟨fun s => (hrelease _).trans (hc.1 s), fun r => ih r (hc.2 r)⟩

theorem Keeps.pause {c : Call σ α} (hc : c.Keeps view) (s : σ) :
    view (c.pause s).2 = view s := by
  induction c generalizing s with
  | finish a => rfl
  | act change next ih => exact (ih s (hc.2 s) (change s)).trans (hc.1 s)
  | ask q abandon next ih => rfl

theorem Keeps.asks {c : Call σ α} (hc : c.Keeps view) {s s' : σ} {q : Request}
    {abandon : σ → σ} {next : q.Reply → Call σ α} (h : c.pause s = (.asks q abandon next, s')) :
    (Call.ask q abandon next).Keeps view := by
  induction c generalizing s with
  | finish a => cases h
  | act change next ih => exact ih s (hc.2 s) h
  | ask q abandon next ih =>
    cases h
    exact hc

theorem pause_bind (c : Call σ α) (f : α → Call σ β) (s : σ) :
    (c.bind f).pause s =
      match c.pause s with
      | (.ended a, s) => (f a).pause s
      | (.asks q abandon next, s) => (.asks q abandon fun r => (next r).bind f, s) := by
  induction c generalizing s with
  | finish a => rfl
  | act change next ih => exact ih s (change s)
  | ask q abandon next ih => rfl

theorem pause_releasing (c : Call σ α) (release : σ → σ) (s : σ) :
    (c.releasing release).pause s =
      match c.pause s with
      | (.ended a, s) => (.ended a, release s)
      | (.asks q abandon next, s) =>
        (.asks q (release ∘ abandon) fun r => (next r).releasing release, s) := by
  induction c generalizing s with
  | finish a => rfl
  | act change next ih => exact ih s (change s)
  | ask q abandon next ih => rfl

end Call

end TagRetention.Client
