import TagRetention.Proofs.Client.Pause

/-!
An object that calls share. A call runs undisturbed up to its next request; replies come in any
order, and a call may be given up while it waits for one.
-/

namespace TagRetention.Client

variable {κ σ α : Type}

inductive Fate (σ α : Type) (q : Request) where
  | waiting (abandon : σ → σ) (next : q.Reply → Call σ α)
  | answered (reply : q.Reply)
  | dropped

def Fate.isWaiting {q : Request} : Fate σ α q → Bool
  | .waiting _ _ => true
  | _ => false

def Fate.answer? {q : Request} : Fate σ α q → Option q.Reply
  | .answered reply => some reply
  | _ => none

/-- A request that was sent: by which call, when the object was as `seen`, and what became of it. -/
structure Errand (κ σ α : Type) where
  caller : Nat
  kind : κ
  seen : σ
  request : Request
  fate : Fate σ α request

namespace Errand

def isWaiting (e : Errand κ σ α) : Bool :=
  e.fate.isWaiting

def settle (fate : (q : Request) → Fate σ α q) (e : Errand κ σ α) : Errand κ σ α :=
  { e with fate := fate e.request }

/-- The rest of the call, if it waits, is as `P` says. -/
def IfWaiting (P : κ → σ → (q : Request) → (σ → σ) → (q.Reply → Call σ α) → Prop)
    (e : Errand κ σ α) : Prop :=
  match e.fate with
  | .waiting abandon next => P e.kind e.seen e.request abandon next
  | _ => True

end Errand

/-- An object, the number of calls on it so far, the requests they sent and how they ended. -/
structure Shared (κ σ α : Type) where
  object : σ
  started : Nat
  sent : List (Errand κ σ α)
  results : List (Nat × α)

inductive Move (κ : Type) where
  | start (kind : κ)
  | reply (n : Nat) (answers : (q : Request) → q.Reply)
  | drop (n : Nat)

namespace Shared

def new (s : σ) : Shared κ σ α := ⟨s, 0, [], []⟩

def record (caller : Nat) (kind : κ) (x : Shared κ σ α) : Pause σ α × σ → Shared κ σ α
  | (.ended a, s) => { x with object := s, results := x.results ++ [(caller, a)] }
  | (.asks q abandon next, s) =>
    { x with object := s, sent := x.sent ++ [⟨caller, kind, s, q, .waiting abandon next⟩] }

/-- Goes on with a call up to its next request. -/
def proceed (caller : Nat) (kind : κ) (c : Call σ α) (x : Shared κ σ α) : Shared κ σ α :=
  x.record caller kind (c.pause x.object)

def settle (n : Nat) (fate : (q : Request) → Fate σ α q) (x : Shared κ σ α) : Shared κ σ α :=
  { x with sent := x.sent.modify n (·.settle fate) }

def step (call : κ → Call σ α) (x : Shared κ σ α) : Move κ → Shared κ σ α
  | .start kind => { x with started := x.started + 1 }.proceed x.started kind (call kind)
  | .reply n answers =>
    match x.sent[n]? with
    | some ⟨caller, kind, _, q, .waiting _ next⟩ =>
      (x.settle n fun q => .answered (answers q)).proceed caller kind (next (answers q))
    | _ => x
  | .drop n =>
    match x.sent[n]? with
    | some ⟨_, _, _, _, .waiting abandon _⟩ =>
      { x.settle n fun _ => .dropped with object := abandon x.object }
    | _ => x

def after (call : κ → Call σ α) (x : Shared κ σ α) (moves : List (Move κ)) : Shared κ σ α :=
  moves.foldl (step call) x

/-- The ways a move goes; nothing happens to a request that does not wait. -/
inductive Step (call : κ → Call σ α) (x : Shared κ σ α) : Move κ → Shared κ σ α → Prop where
  | idle (m : Move κ) : Step call x m x
  | start (kind : κ) :
    Step call x (.start kind)
      ({ x with started := x.started + 1 }.proceed x.started kind (call kind))
  | reply {n caller : Nat} {kind : κ} {seen : σ} {q : Request} {abandon : σ → σ}
    {next : q.Reply → Call σ α} (answers : (q : Request) → q.Reply)
    (hn : x.sent[n]? = some ⟨caller, kind, seen, q, .waiting abandon next⟩) :
    Step call x (.reply n answers)
      ((x.settle n fun q => .answered (answers q)).proceed caller kind (next (answers q)))
  | drop {n caller : Nat} {kind : κ} {seen : σ} {q : Request} {abandon : σ → σ}
    {next : q.Reply → Call σ α}
    (hn : x.sent[n]? = some ⟨caller, kind, seen, q, .waiting abandon next⟩) :
    Step call x (.drop n) { x.settle n fun _ => .dropped with object := abandon x.object }

variable {call : κ → Call σ α} {x : Shared κ σ α} {fate : (q : Request) → Fate σ α q}
  {e : Errand κ σ α} {n m : Nat}

theorem step_cases (call : κ → Call σ α) (x : Shared κ σ α) (m : Move κ) :
    Step call x m (x.step call m) := by
  cases m with
  | start kind => exact .start kind
  | reply n answers =>
    simp only [step]
    split
    · rename_i hn
      exact .reply answers hn
    · exact .idle _
  | drop n =>
    simp only [step]
    split
    · rename_i hn
      exact .drop hn
    · exact .idle _

theorem getElem?_concat_eq_some_iff {β : Type} {l : List β} {a b : β} :
    (l ++ [a])[n]? = some b ↔ l[n]? = some b ∨ n = l.length ∧ a = b := by
  rcases Nat.lt_trichotomy n l.length with hlt | rfl | hgt
  · rw [List.getElem?_append_left hlt]
    simp [Nat.ne_of_lt hlt]
  · simp
  · have hlength : (l ++ [a]).length ≤ n := by
      rw [List.length_append]
      exact hgt
    rw [List.getElem?_eq_none (Nat.le_of_lt hgt), List.getElem?_eq_none hlength]
    simp [Nat.ne_of_gt hgt]

theorem getElem?_settle (x : Shared κ σ α) (n m : Nat) (fate : (q : Request) → Fate σ α q) :
    (x.settle n fate).sent[m]? =
      if n = m then (x.sent[m]?).map (·.settle fate) else x.sent[m]? := by
  rw [settle, List.getElem?_modify]
  split
  · rfl
  · simp

theorem mem_settle (h : e ∈ (x.settle n fate).sent) :
    ∃ d ∈ x.sent, e = d ∨ e = d.settle fate := by
  obtain ⟨m, hm⟩ := List.mem_iff_getElem?.1 h
  rw [getElem?_settle] at hm
  split at hm
  · obtain ⟨d, hd, rfl⟩ := Option.map_eq_some_iff.1 hm
    exact ⟨d, List.mem_of_getElem? hd, .inr rfl⟩
  · exact ⟨e, List.mem_of_getElem? hm, .inl rfl⟩

theorem ifWaiting_settle {P : κ → σ → (q : Request) → (σ → σ) → (q.Reply → Call σ α) → Prop}
    (h : ∀ e ∈ x.sent, e.IfWaiting P) (hfate : ∀ q, (fate q).isWaiting = false) (n : Nat) :
    ∀ e ∈ (x.settle n fate).sent, e.IfWaiting P := by
  intro e he
  obtain ⟨d, hd, rfl | rfl⟩ := mem_settle he
  · exact h e hd
  · have hnot := hfate d.request
    rw [Errand.IfWaiting, Errand.settle]
    revert hnot
    cases fate d.request with
    | waiting abandon next => nofun
    | answered | dropped => exact fun _ => trivial

theorem map_sent_settle_of_getElem? {β : Type} (f : Errand κ σ α → β)
    (hn : x.sent[n]? = some e) :
    (x.settle n fate).sent.map f = (x.sent.map f).set n (f (e.settle fate)) := by
  apply List.ext_getElem?
  intro m
  rw [List.getElem?_map, getElem?_settle, List.getElem?_set]
  split
  · rename_i hm
    have hlt := (List.getElem?_eq_some_iff.1 hn).1
    rw [← hm, hn, List.length_map, if_pos hlt]
    rfl
  · rw [List.getElem?_map]

theorem map_sent_settle {β : Type} {f : Errand κ σ α → β}
    (hf : ∀ e, f (e.settle fate) = f e) (x : Shared κ σ α) (n : Nat) :
    (x.settle n fate).sent.map f = x.sent.map f := by
  apply List.ext_getElem?
  intro m
  rw [List.getElem?_map, List.getElem?_map, getElem?_settle]
  split
  · rw [Option.map_map]
    exact congrArg (Option.map · _) (funext hf)
  · rfl

end Shared

end TagRetention.Client
