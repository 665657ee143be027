import TagRetention.Client.Orchestrator
import TagRetention.Proofs.Client.Plan
import TagRetention.Proofs.Client.Shared

/-!
Mutations of one orchestrator that overlap, with its other calls in between. The flag is up while a
mutation is under way, and it comes down however that one ends.
-/

namespace TagRetention.Client.Orchestrator

inductive Command where
  | mutate (m : Mutation)
  | load
  | loadCatalog
  | editSchedule (editing : Bool)

def Command.isMutation : Command → Bool
  | .mutate _ => true
  | _ => false

def Command.call : Command → Attempt Unit
  | .mutate m => Orchestrator.mutate m
  | .load => Orchestrator.load.map (·.map fun _ => ())
  | .loadCatalog => Orchestrator.loadCatalog
  | .editSchedule editing => .change (setEditing editing) (.finish (.ok ()))

abbrev InUse := Shared Command Orchestrator (Except MutationFault Unit)

abbrev Sent := Errand Command Orchestrator (Except MutationFault Unit)

/-- The request of a mutation that has begun and is not over. -/
def Held (e : Sent) : Prop :=
  e.kind.isMutation = true ∧ e.isWaiting = true

def InUse.InFlight (x : InUse) (caller : Nat) : Prop :=
  ∃ e ∈ x.sent, e.caller = caller ∧ Held e

section

variable {γ : Type} {view : Orchestrator → γ} (hadopt : ∀ id p o, view (adopt id p o) = view o)

include hadopt

theorem keeps_reload (id : PolicyId) : (reload id).Keeps view :=
  Call.keeps_request fun
    | .error _ => trivial
    | .ok p => Call.keeps_change (hadopt id p) trivial

theorem keeps_refresh (id : PolicyId) : (refresh id).Keeps view :=
  (keeps_reload hadopt id).map _

theorem keeps_reloadProject (hforget : ∀ o, view (forget o) = view o) :
    reloadProject.Keeps view :=
  Call.keeps_look fun _ => Call.keeps_request fun
    | .error _ => trivial
    | .ok none => Call.keeps_change hforget trivial
    | .ok (some id) => keeps_reload hadopt id

theorem load_eq_whileLoading (hforget : ∀ o, view (forget o) = view o) :
    ∃ c, load = whileLoading c ∧ c.Keeps view := by
  refine ⟨_, rfl, (keeps_reloadProject hadopt hforget).bind fun r => ?_⟩
  cases r with
  | error e => trivial
  | ok _ => exact Call.keeps_look fun _ => trivial

theorem persist_eq_whileLoading (draft : Policy) :
    ∃ c, persist draft = whileLoading c ∧ c.Keeps view := by
  refine ⟨_, rfl, Call.keeps_look fun o => ?_⟩
  cases o.saved with
  | none =>
    exact Call.keeps_request fun
      | .error _ => trivial
      | .ok id => Call.keeps_change (hadopt id draft) (keeps_refresh hadopt id)
  | some id =>
    exact Call.keeps_request fun
      | .error _ => trivial
      | .ok _ => keeps_refresh hadopt id

end

theorem keeps_loadCatalog {γ : Type} {view : Orchestrator → γ}
    (h : ∀ m (o : Orchestrator), view { o with catalog := m } = view o) : loadCatalog.Keeps view :=
  Call.keeps_request fun
    | .error _ => trivial
    | .ok m => Call.keeps_change (h m) trivial

theorem keeps_whileLoading {α : Type} {c : Call Orchestrator α} (hc : c.Keeps mutationPending) :
    (whileLoading c).Keeps mutationPending :=
  Call.keeps_change (fun _ => rfl) (hc.releasing fun _ => rfl)

theorem keeps_load : load.Keeps mutationPending := by
  obtain ⟨c, hload, hc⟩ : ∃ c, load = whileLoading c ∧ c.Keeps mutationPending :=
    load_eq_whileLoading (fun _ _ _ => rfl) fun _ => rfl
  rw [hload]
  exact keeps_whileLoading hc

theorem keeps_persist (draft : Policy) : (persist draft).Keeps mutationPending := by
  obtain ⟨c, hpersist, hc⟩ : ∃ c, persist draft = whileLoading c ∧ c.Keeps mutationPending :=
    persist_eq_whileLoading (fun _ _ _ => rfl) draft
  rw [hpersist]
  exact keeps_whileLoading hc

theorem keeps_carryOut (m : Mutation) (draft : Policy) :
    (carryOut m draft).Keeps mutationPending := by
  apply (keeps_persist draft).bind
  intro result
  split
  · exact Call.keeps_change (fun _ => rfl) trivial
  · trivial

theorem keeps_call {k : Command} (hk : k.isMutation = false) : k.call.Keeps mutationPending := by
  cases k with
  | mutate m => cases hk
  | load => exact keeps_load.map _
  | loadCatalog => exact keeps_loadCatalog fun _ _ => rfl
  | editSchedule editing => exact Call.keeps_change (fun _ => rfl) trivial

/-- A mutation without its flag. -/
def attempt (m : Mutation) (o : Orchestrator) : Attempt Unit :=
  match m.plan o.policy o.catalog with
  | .error e => .finish (.error e)
  | .ok none => .finish (.ok ())
  | .ok (some edit) => carryOut m (edit.apply o.policy)

theorem keeps_attempt (m : Mutation) (o : Orchestrator) :
    (attempt m o).Keeps mutationPending := by
  unfold attempt
  split
  · trivial
  · trivial
  · exact keeps_carryOut m _

theorem pause_mutate_busy {o : Orchestrator} (h : o.mutationPending = true) (m : Mutation) :
    (mutate m).pause o = (.ended (.error .inProgress), o) := by
  simp only [mutate, Call.look, Call.pause, h, if_true, id]

theorem pause_mutate_free {o : Orchestrator} (h : o.mutationPending = false) (m : Mutation) :
    (mutate m).pause o =
      ((attempt m o).releasing (setPending false)).pause (o.setPending true) := by
  simp only [mutate, Call.look, Call.change, Call.pause, h, Bool.false_eq_true, if_false, id]
  rfl

/-- What goes on after the reply leaves the flag alone, or is a mutation that takes it down at the
end. -/
def Guarded (e : Sent) : Prop :=
  e.IfWaiting fun kind _ q abandon next =>
    if kind.isMutation then
      ∃ c : Attempt Unit, c.Keeps mutationPending ∧
        Call.ask q abandon next = c.releasing (setPending false)
    else (Call.ask q abandon next).Keeps mutationPending

def InUse.senders (x : InUse) : List (Command × Nat) :=
  x.sent.map fun e => (e.kind, e.caller)

/-- Mutations take turns: the requests of one come before those of the next. -/
def TakesTurn (a b : Command × Nat) : Prop :=
  a.1.isMutation = true → b.1.isMutation = true → a.2 ≤ b.2

/-- What does not depend on which requests wait. -/
structure Ordered (x : InUse) : Prop where
  guarded : ∀ e ∈ x.sent, Guarded e
  callers : ∀ e ∈ x.sent, e.caller < x.started
  turns : x.senders.Pairwise TakesTurn

structure Orderly (x : InUse) : Prop extends Ordered x where
  pending : x.object.mutationPending = true ↔ ∃ e ∈ x.sent, Held e
  last : ∀ (n m : Nat) (d e : Sent), x.sent[n]? = some d → Held d → x.sent[m]? = some e →
    e.kind.isMutation = true → m ≤ n

variable {x : InUse} {o : Orchestrator} {c : Attempt Unit} {k : Command} {d e : Sent} {n i : Nat}
  {fate : (q : Request) → Fate Orchestrator (Except MutationFault Unit) q}

theorem Ordered.settle (h : Ordered x) (hfate : ∀ q, (fate q).isWaiting = false) (n : Nat) :
    Ordered (x.settle n fate) := by
  refine ⟨Shared.ifWaiting_settle h.guarded hfate n, ?_, ?_⟩
  · intro e he
    obtain ⟨d, hd, rfl | rfl⟩ := Shared.mem_settle he
    · exact h.callers e hd
    · exact h.callers d hd
  · rw [InUse.senders, Shared.map_sent_settle fun _ => rfl]
    exact h.turns

theorem Ordered.append (h : Ordered x) (he : Guarded e) (hcaller : e.caller < x.started)
    (hturn : ∀ d ∈ x.sent, TakesTurn (d.kind, d.caller) (e.kind, e.caller)) (o : Orchestrator) :
    Ordered { x with object := o, sent := x.sent ++ [e] } := by
  refine ⟨?_, ?_, ?_⟩
  · intro d hd
    rcases List.mem_append.1 hd with hd | hd
    · exact h.guarded d hd
    · rw [List.mem_singleton.1 hd]
      exact he
  · intro d hd
    rcases List.mem_append.1 hd with hd | hd
    · exact h.callers d hd
    · rw [List.mem_singleton.1 hd]
      exact hcaller
  · rw [InUse.senders, List.map_append, List.pairwise_append]
    refine ⟨h.turns, List.pairwise_singleton _ _, ?_⟩
    intro a ha b hb
    obtain ⟨d, hd, rfl⟩ := List.mem_map.1 ha
    rw [List.map_singleton, List.mem_singleton] at hb
    rw [hb]
    exact hturn d hd

theorem Orderly.not_held_settle (h : Orderly x) (hd : x.sent[n]? = some d) (hheld : Held d)
    (hfate : ∀ q, (fate q).isWaiting = false) : ∀ e ∈ (x.settle n fate).sent, ¬ Held e := by
  intro e he hhe
  obtain ⟨m, hm⟩ := List.mem_iff_getElem?.1 he
  rw [Shared.getElem?_settle] at hm
  split at hm
  · obtain ⟨b, hb, rfl⟩ := Option.map_eq_some_iff.1 hm
    have hwaits : (fate b.request).isWaiting = true := hhe.2
    rw [hfate] at hwaits
    cases hwaits
  · rename_i hne
    exact hne (Nat.le_antisymm (h.last m n e d hm hhe hd hheld.1) (h.last n m d e hd hheld hm hhe.1))

/-- A mutation goes on while it holds the flag and no other one does. -/
theorem Ordered.record_releasing (h : Ordered x) (hfree : ∀ e ∈ x.sent, ¬ Held e)
    (hi : i < x.started) (hturn : ∀ d ∈ x.sent, TakesTurn (d.kind, d.caller) (k, i))
    (hk : k.isMutation = true) (hc : c.Keeps mutationPending) (ho : o.mutationPending = true) :
    Orderly (x.record i k ((c.releasing (setPending false)).pause o)) := by
  have hkeeps := hc.pause o
  rw [Call.pause_releasing]
  rcases hp : c.pause o with ⟨a | ⟨q, abandon, next⟩, s⟩
  · refine ⟨⟨h.guarded, h.callers, h.turns⟩, ?_, ?_⟩
    · refine iff_of_false Bool.false_ne_true ?_
      rintro ⟨e, he, hheld⟩
      exact hfree e he hheld
    · intro n m d e hd hheld
      exact absurd hheld (hfree d (List.mem_of_getElem? hd))
  · rw [hp] at hkeeps
    have hguarded : Guarded ⟨i, k, s, q, .waiting (setPending false ∘ abandon)
        fun r => (next r).releasing (setPending false)⟩ := by
      simp only [Guarded, Errand.IfWaiting, hk, if_true]
      exact ⟨_, hc.asks hp, rfl⟩
    refine ⟨h.append hguarded hi hturn s, ?_, ?_⟩
    · refine iff_of_true (hkeeps.trans ho) ⟨_, List.mem_append_right _ List.mem_cons_self, hk, rfl⟩
    · intro n m d e hd hheld he _
      rcases Shared.getElem?_concat_eq_some_iff.1 hd with hd | ⟨rfl, -⟩
      · exact absurd hheld (hfree d (List.mem_of_getElem? hd))
      · rcases Shared.getElem?_concat_eq_some_iff.1 he with he | ⟨rfl, -⟩
        · exact Nat.le_of_lt (List.getElem?_eq_some_iff.1 he).1
        · exact Nat.le_refl _

theorem Orderly.congr (h : Orderly x) (ho : o.mutationPending = x.object.mutationPending)
    (started : Nat) (hstarted : x.started ≤ started)
    (results : List (Nat × Except MutationFault Unit)) :
    Orderly ⟨o, started, x.sent, results⟩ where
  guarded := h.guarded
  callers e he := Nat.lt_of_lt_of_le (h.callers e he) hstarted
  turns := h.turns
  pending := ho ▸ h.pending
  last := h.last

theorem Orderly.record_of_keeps (h : Orderly x) (hi : i < x.started) (hk : k.isMutation = false)
    (hc : c.Keeps mutationPending) : Orderly (x.proceed i k c) := by
  have hkeeps := hc.pause x.object
  unfold Shared.proceed
  rcases hp : c.pause x.object with ⟨a | ⟨q, abandon, next⟩, s⟩
  · rw [hp] at hkeeps
    exact h.congr hkeeps x.started (Nat.le_refl _) _
  · rw [hp] at hkeeps
    have hguarded : Guarded ⟨i, k, s, q, .waiting abandon next⟩ := by
      simp only [Guarded, Errand.IfWaiting, hk]
      exact hc.asks hp
    have hnew : ¬ k.isMutation = true := by
      rw [hk]
      exact Bool.false_ne_true
    refine ⟨h.toOrdered.append hguarded hi (fun _ _ _ hm => absurd hm hnew) s, ?_, ?_⟩
    · have hpending : s.mutationPending = true ↔ x.object.mutationPending = true :=
        iff_of_eq (congrArg (· = true) hkeeps)
      refine (hpending.trans h.pending).trans ⟨?_, ?_⟩
      · rintro ⟨e, he, hheld⟩
        exact ⟨e, List.mem_append_left _ he, hheld⟩
      · rintro ⟨e, he, hheld⟩
        rcases List.mem_append.1 he with he | he
        · exact ⟨e, he, hheld⟩
        · rw [List.mem_singleton.1 he] at hheld
          exact absurd hheld.1 hnew
    · intro n m d e hd hheld he hm
      rcases Shared.getElem?_concat_eq_some_iff.1 hd with hd | ⟨-, rfl⟩
      · rcases Shared.getElem?_concat_eq_some_iff.1 he with he | ⟨-, rfl⟩
        · exact h.last n m d e hd hheld he hm
        · exact absurd hm hnew
      · exact absurd hheld.1 hnew

theorem Orderly.settle (h : Orderly x) (hd : x.sent[n]? = some d)
    (hk : d.kind.isMutation = false) (hfate : ∀ q, (fate q).isWaiting = false) :
    Orderly (x.settle n fate) := by
  -- the request that is settled is no mutation's, before as after
  have hsame : ∀ (m : Nat) (e : Sent),
      (x.settle n fate).sent[m]? = some e ∧ e.kind.isMutation = true ↔
        x.sent[m]? = some e ∧ e.kind.isMutation = true := by
    intro m e
    rw [Shared.getElem?_settle]
    split
    · rename_i hm
      subst hm
      rw [hd]
      constructor
      · rintro ⟨he, hm⟩
        obtain rfl := Option.some.inj he
        exact absurd (hk.symm.trans hm) Bool.false_ne_true
      · rintro ⟨he, hm⟩
        obtain rfl := Option.some.inj he
        exact absurd (hk.symm.trans hm) Bool.false_ne_true
    · exact Iff.rfl
  refine ⟨h.toOrdered.settle hfate n, h.pending.trans ⟨?_, ?_⟩, ?_⟩
  · rintro ⟨e, he, hheld⟩
    obtain ⟨m, hm⟩ := List.mem_iff_getElem?.1 he
    exact ⟨e, List.mem_of_getElem? ((hsame m e).2 ⟨hm, hheld.1⟩).1, hheld⟩
  · rintro ⟨e, he, hheld⟩
    obtain ⟨m, hm⟩ := List.mem_iff_getElem?.1 he
    exact ⟨e, List.mem_of_getElem? ((hsame m e).1 ⟨hm, hheld.1⟩).1, hheld⟩
  · intro i m d e hd hheld he hm
    exact h.last i m d e ((hsame i d).1 ⟨hd, hheld.1⟩).1 hheld ((hsame m e).1 ⟨he, hm⟩).1 hm

theorem Orderly.takesTurn (h : Orderly x) (hd : x.sent[n]? = some d) (hheld : Held d)
    (he : e ∈ x.sent) : TakesTurn (e.kind, e.caller) (d.kind, d.caller) := by
  intro hm hmd
  obtain ⟨m, he⟩ := List.mem_iff_getElem?.1 he
  rcases Nat.lt_or_eq_of_le (h.last n m d e hd hheld he hm) with hlt | rfl
  · obtain ⟨hmlt, rfl⟩ := List.getElem?_eq_some_iff.1 he
    obtain ⟨hnlt, rfl⟩ := List.getElem?_eq_some_iff.1 hd
    exact List.pairwise_iff_getElem.1 (List.pairwise_map.1 h.turns) m n hmlt hnlt hlt hm hmd
  · obtain rfl := Option.some.inj (he.symm.trans hd)
    exact Nat.le_refl _

theorem Orderly.not_held (h : Orderly x) (hfree : x.object.mutationPending = false) :
    ∀ e ∈ x.sent, ¬ Held e := by
  intro e he hheld
  have hup := h.pending.2 ⟨e, he, hheld⟩
  rw [hfree] at hup
  cases hup

theorem Orderly.start (h : Orderly x) (k : Command) :
    Orderly ({ x with started := x.started + 1 }.proceed x.started k k.call) := by
  have hnext : Orderly { x with started := x.started + 1 } :=
    h.congr rfl _ (Nat.le_succ _) _
  cases hk : k.isMutation with
  | false => exact hnext.record_of_keeps (Nat.lt_succ_self _) hk (keeps_call hk)
  | true =>
    obtain ⟨m, rfl⟩ : ∃ m, k = .mutate m := by
      cases k with
      | mutate m => exact ⟨m, rfl⟩
      | load | loadCatalog | editSchedule => cases hk
    unfold Shared.proceed
    cases hup : x.object.mutationPending with
    | true =>
      have hbusy : (Command.mutate m).call.pause x.object = (.ended (.error .inProgress), x.object) :=
        pause_mutate_busy hup m
      rw [hbusy]
      exact h.congr rfl _ (Nat.le_succ _) _
    | false =>
      have hfree : (Command.mutate m).call.pause x.object =
          ((attempt m x.object).releasing (setPending false)).pause (x.object.setPending true) :=
        pause_mutate_free hup m
      rw [hfree]
      apply hnext.toOrdered.record_releasing (h.not_held hup) (Nat.lt_succ_self _) ?_ hk
        (keeps_attempt m x.object) rfl
      intro d hd _ _
      exact Nat.le_of_lt (h.callers d hd)

theorem Orderly.reply (h : Orderly x) {k : Command} {seen : Orchestrator} {q : Request}
    {abandon : Orchestrator → Orchestrator} {next : q.Reply → Attempt Unit}
    (hn : x.sent[n]? = some ⟨i, k, seen, q, .waiting abandon next⟩)
    (answers : (q : Request) → q.Reply) :
    Orderly ((x.settle n fun q => .answered (answers q)).proceed i k (next (answers q))) := by
  have hmem := List.mem_of_getElem? hn
  have hguarded := h.guarded _ hmem
  cases hk : k.isMutation with
  | false =>
    simp only [Guarded, Errand.IfWaiting, hk, Bool.false_eq_true, if_false] at hguarded
    exact (h.settle hn hk fun _ => rfl).record_of_keeps (h.callers _ hmem) hk
      (hguarded.2 (answers q))
  | true =>
    simp only [Guarded, Errand.IfWaiting, hk, if_true] at hguarded
    obtain ⟨c, hc, hask⟩ := hguarded
    -- what waits is a request, so the rest of the mutation begins with it
    cases c with
    | finish | act => cases hask
    | ask q' abandon' next' =>
      cases hask
      have hheld : Held ⟨i, k, seen, q, .waiting (setPending false ∘ abandon') fun r =>
          (next' r).releasing (setPending false)⟩ := ⟨hk, rfl⟩
      apply (h.toOrdered.settle (fun _ => rfl) n).record_releasing
        (h.not_held_settle hn hheld fun _ => rfl) (h.callers _ hmem) ?_ hk (hc.2 (answers q))
        (h.pending.2 ⟨_, hmem, hheld⟩)
      intro d hd
      obtain ⟨b, hb, rfl | rfl⟩ := Shared.mem_settle hd
      all_goals
        have hturn := h.takesTurn hn hheld hb
        exact hturn

theorem Orderly.drop (h : Orderly x) {k : Command} {seen : Orchestrator} {q : Request}
    {abandon : Orchestrator → Orchestrator} {next : q.Reply → Attempt Unit}
    (hn : x.sent[n]? = some ⟨i, k, seen, q, .waiting abandon next⟩) :
    Orderly { x.settle n fun _ => .dropped with object := abandon x.object } := by
  have hguarded := h.guarded _ (List.mem_of_getElem? hn)
  cases hk : k.isMutation with
  | false =>
    simp only [Guarded, Errand.IfWaiting, hk, Bool.false_eq_true, if_false] at hguarded
    exact (h.settle hn hk fun _ => rfl).congr (hguarded.1 x.object) _ (Nat.le_refl _) _
  | true =>
    simp only [Guarded, Errand.IfWaiting, hk, if_true] at hguarded
    obtain ⟨c, hc, hask⟩ := hguarded
    cases c with
    | finish | act => cases hask
    | ask q' abandon' next' =>
      cases hask
      have hfree : ∀ e ∈ (x.settle n fun _ => .dropped).sent, ¬ Held e :=
        h.not_held_settle hn ⟨hk, rfl⟩ fun _ => rfl
      have hordered : Ordered (x.settle n fun _ => .dropped) :=
        h.toOrdered.settle (fun _ => rfl) n
      refine ⟨⟨hordered.guarded, hordered.callers, hordered.turns⟩, ?_, ?_⟩
      · refine iff_of_false Bool.false_ne_true ?_
        rintro ⟨e, he, hheld⟩
        exact hfree e he hheld
      · intro j m d e hd hheld
        exact absurd hheld (hfree d (List.mem_of_getElem? hd))

theorem Orderly.step (h : Orderly x) (m : Move Command) : Orderly (x.step Command.call m) := by
  have hstep := Shared.step_cases Command.call x m
  generalize x.step Command.call m = y at hstep
  cases hstep with
  | idle => exact h
  | start k => exact h.start k
  | reply answers hn => exact h.reply hn answers
  | drop hn => exact h.drop hn

theorem orderly_new (project : ProjectId) : Orderly (Shared.new (.new project)) := by
  refine ⟨⟨?_, ?_, .nil⟩, ?_, ?_⟩ <;> simp [Shared.new, Orchestrator.new]

theorem Orderly.after (h : Orderly x) (moves : List (Move Command)) :
    Orderly (x.after Command.call moves) := by
  induction moves generalizing x with
  | nil => exact h
  | cons m moves ih => exact ih (h.step m)

theorem pause_carryOut (m : Mutation) (draft : Policy) (o : Orchestrator) :
    ∃ q abandon next s, (carryOut m draft).pause o = (.asks q abandon next, s) := by
  have hpersist : ∃ q abandon next s, (persist draft).pause o = (.asks q abandon next, s) := by
    simp only [persist, whileLoading, Call.change, Call.look, Call.pause, Call.releasing, id]
    cases (setLoading true o).saved <;> exact ⟨_, _, _, _, rfl⟩
  obtain ⟨q, abandon, next, s, hp⟩ := hpersist
  rw [carryOut, Call.pause_bind, hp]
  exact ⟨_, _, _, _, rfl⟩

theorem ne_inProgress_of_attempt {m : Mutation} {a : Except MutationFault Unit}
    {s s' : Orchestrator} (h : (attempt m o).pause s = (.ended a, s')) :
    a ≠ .error .inProgress := by
  unfold attempt at h
  rcases m.plan_cases o.policy o.catalog with ⟨f, hp⟩ | ⟨j, hp⟩ | hp | hp <;> rw [hp] at h
  · cases h
    nofun
  · cases h
    nofun
  · cases h
    nofun
  · obtain ⟨q, abandon, next, s'', hask⟩ := pause_carryOut m (m.effect.apply o.policy) s
    rw [hask] at h
    cases h

theorem InUse.exists_inFlight_iff : (∃ i, InUse.InFlight x i) ↔ ∃ e ∈ x.sent, Held e := by
  constructor
  · rintro ⟨i, e, he, -, hheld⟩
    exact ⟨e, he, hheld⟩
  · rintro ⟨e, he, hheld⟩
    exact ⟨e.caller, e, he, rfl, hheld⟩

theorem Orderly.inFlight_unique (h : Orderly x) {j : Nat} (hi : InUse.InFlight x i)
    (hj : InUse.InFlight x j) : i = j := by
  obtain ⟨d, hd, rfl, hheld⟩ := hi
  obtain ⟨e, he, rfl, hheld'⟩ := hj
  obtain ⟨n, hn⟩ := List.mem_iff_getElem?.1 hd
  obtain ⟨m, hm⟩ := List.mem_iff_getElem?.1 he
  exact Nat.le_antisymm (h.takesTurn hm hheld' hd hheld.1 hheld'.1)
    (h.takesTurn hn hheld he hheld'.1 hheld.1)

theorem Orderly.start_busy (h : Orderly x) (hbusy : ∃ e ∈ x.sent, Held e) (m : Mutation) :
    x.step Command.call (.start (.mutate m)) =
      { x with
        started := x.started + 1
        results := x.results ++ [(x.started, .error .inProgress)] } := by
  have hpause : (Command.mutate m).call.pause x.object = (.ended (.error .inProgress), x.object) :=
    pause_mutate_busy (h.pending.2 hbusy) m
  rw [Shared.step, Shared.proceed, hpause]
  rfl

theorem Orderly.refused_iff (h : Orderly x) (m : Mutation) :
    (x.step Command.call (.start (.mutate m))).results =
        x.results ++ [(x.started, .error .inProgress)] ↔ ∃ e ∈ x.sent, Held e := by
  constructor
  · intro hrefused
    by_contra hnone
    have hup : x.object.mutationPending = false := by
      rwa [← Bool.not_eq_true, h.pending]
    have hpause : (Command.mutate m).call.pause x.object =
        ((attempt m x.object).releasing (setPending false)).pause (x.object.setPending true) :=
      pause_mutate_free hup m
    rw [Shared.step, Shared.proceed, hpause, Call.pause_releasing] at hrefused
    rcases hp : (attempt m x.object).pause (x.object.setPending true) with
      ⟨a | ⟨q, abandon, next⟩, s⟩
    · rw [hp] at hrefused
      have hresult := List.append_cancel_left hrefused
      simp only [List.cons.injEq, Prod.mk.injEq, true_and, and_true] at hresult
      exact ne_inProgress_of_attempt hp hresult
    · rw [hp] at hrefused
      have hlength := congrArg List.length hrefused
      simp [Shared.record] at hlength
  · intro hbusy
    rw [h.start_busy hbusy m]

/-- Along any history, at most one mutation is under way, and the flag says whether one is. While it
is, another mutation is refused without a request and without a trace on the object, and no other
time; and no request of another mutation comes between two of its own. -/
theorem one_mutation (project : ProjectId) (moves : List (Move Command)) :
    let x : InUse := (Shared.new (.new project)).after Command.call moves
    (∀ i j, x.InFlight i → x.InFlight j → i = j) ∧
      (x.object.mutationPending = true ↔ ∃ i, x.InFlight i) ∧
      (∀ m, (∃ i, x.InFlight i) → x.step Command.call (.start (.mutate m)) =
        { x with
          started := x.started + 1
          results := x.results ++ [(x.started, .error .inProgress)] }) ∧
      (∀ m, (x.step Command.call (.start (.mutate m))).results =
        x.results ++ [(x.started, .error .inProgress)] → ∃ i, x.InFlight i) ∧
      ∀ past between future (d e : Sent), x.sent = past ++ d :: (between ++ e :: future) →
        d.kind.isMutation = true → e.kind.isMutation = true → e.caller = d.caller →
        ∀ b ∈ between, b.kind.isMutation = true → b.caller = d.caller := by
  intro x
  have h : Orderly x := (orderly_new project).after moves
  refine ⟨fun i j => h.inFlight_unique, h.pending.trans InUse.exists_inFlight_iff.symm,
    fun m hbusy => h.start_busy (InUse.exists_inFlight_iff.1 hbusy) m,
    fun m hrefused => InUse.exists_inFlight_iff.2 ((h.refused_iff m).1 hrefused), ?_⟩
  intro past between future d e hsent hd he hcaller b hb hbm
  have hturns := List.pairwise_map.1 h.turns
  rw [hsent, List.pairwise_append, List.pairwise_cons, List.pairwise_append] at hturns
  obtain ⟨-, ⟨hafter, -, -, hbefore⟩, -⟩ := hturns
  apply Nat.le_antisymm
  · rw [← hcaller]
    exact hbefore b hb e List.mem_cons_self hbm he
  · exact hafter b (List.mem_append_left _ hb) hd hbm

/-- The second mutation is refused, and giving up the first one takes the flag down. -/
example :
    let x : InUse := (Shared.new (.new 1)).after Command.call
      [.start (.mutate (.setTrigger dailyCron)), .start (.mutate (.setTrigger weeklyCron))]
    x.object.mutationPending = true ∧ x.results = [(1, .error .inProgress)] ∧
      (x.step Command.call (.drop 0)).object.mutationPending = false :=
  ⟨rfl, rfl, rfl⟩

end TagRetention.Client.Orchestrator
