import TagRetention.Client.LocalService
import TagRetention.Proofs.Client.OneMutation
import TagRetention.Proofs.Client.Release
import TagRetention.Proofs.Client.UnderWay

/-!
The loading flag of an orchestrator whose calls overlap. Loads and mutations that write raise it,
and the first of them to end lowers it for all.
-/

namespace TagRetention.Client.Orchestrator

def Command.raisesLoading : Command → Bool
  | .mutate _ | .load => true
  | _ => false

/-- The load, or the write and reload of the mutation, is in flight. -/
abbrev InUse.Working (x : InUse) (i : Nat) : Prop :=
  x.UnderWay Command.raisesLoading i

/-- The rest of such a call will lower the flag, that of another one leaves it alone. -/
structure Lowers (k : Command) (c : Attempt Unit) : Prop where
  releases : k.raisesLoading = true → c.Releases loading false
  keeps : k.raisesLoading = false → c.Keeps loading

structure Flagged (x : InUse) : Prop extends Shared.OneEach x where
  lowers : ∀ e ∈ x.sent, e.IfWaiting fun k _ q abandon next => Lowers k (.ask q abandon next)

variable {x y : InUse} {o s : Orchestrator} {c : Attempt Unit} {k : Command} {i n : Nat}
  {fate : (q : Request) → Fate Orchestrator (Except MutationFault Unit) q} {q : Request}
  {abandon : Orchestrator → Orchestrator} {next : q.Reply → Attempt Unit}

theorem Lowers.asks (h : Lowers k c) (hp : c.pause o = (.asks q abandon next, s)) :
    Lowers k (.ask q abandon next) :=
  ⟨fun hk => ((h.releases hk).asks hp).2, fun hk => (h.keeps hk).asks hp⟩

theorem Lowers.reply (h : Lowers k (.ask q abandon next)) (r : q.Reply) : Lowers k (next r) :=
  ⟨fun hk => (h.releases hk).2 r, fun hk => (h.keeps hk).2 r⟩

theorem keeps_loading_call (hk : k.raisesLoading = false) : k.call.Keeps loading := by
  cases k with
  | mutate | load => cases hk
  | loadCatalog => exact keeps_loadCatalog fun _ _ => rfl
  | editSchedule editing => exact Call.keeps_change (fun _ => rfl) trivial

/-- The call sends a request with the flag up, and will lower it. -/
def Raises (c : Attempt Unit) (o : Orchestrator) : Prop :=
  ∃ q abandon next s, c.pause o = (.asks q abandon next, s) ∧ s.loading = true ∧
    (Call.ask q abandon next).Releases loading false

theorem raises_change (hc : c.Releases loading false)
    (hasks : ∃ q abandon next s, (Call.change (setLoading true) c).pause o =
      (.asks q abandon next, s)) : Raises (.change (setLoading true) c) o := by
  obtain ⟨q, abandon, next, s, hp⟩ := hasks
  obtain ⟨hs, hrest⟩ := hc.asks (s := o.setLoading true) hp
  exact ⟨q, abandon, next, s, hp, hs, hrest⟩

theorem raises_load (o : Orchestrator) : Raises Command.load.call o := by
  have hasks : ∃ q abandon next s, Command.load.call.pause o = (.asks q abandon next, s) :=
    ⟨_, _, _, _, rfl⟩
  obtain ⟨c, hload, hc⟩ : ∃ c, load = whileLoading c ∧ c.Keeps loading :=
    load_eq_whileLoading (fun _ _ _ => rfl) fun _ => rfl
  rw [Command.call, hload] at hasks ⊢
  have hreleases : (c.releasing (setLoading false)).Releases loading false :=
    hc.releases fun _ => rfl
  exact raises_change (hreleases.map _) hasks

theorem raises_carryOut (m : Mutation) (draft : Policy) (o : Orchestrator) :
    Raises ((carryOut m draft).releasing (setPending false)) o := by
  have hasks : ∃ q abandon next s, ((carryOut m draft).releasing (setPending false)).pause o =
      (.asks q abandon next, s) := by
    obtain ⟨q, abandon, next, s, hp⟩ := pause_carryOut m draft o
    rw [Call.pause_releasing, hp]
    exact ⟨_, _, _, _, rfl⟩
  obtain ⟨c, hpersist, hc⟩ : ∃ c, persist draft = whileLoading c ∧ c.Keeps loading :=
    persist_eq_whileLoading (fun _ _ _ => rfl) draft
  rw [carryOut, hpersist] at hasks ⊢
  have hreleases : (c.releasing (setLoading false)).Releases loading false :=
    hc.releases fun _ => rfl
  refine raises_change ((hreleases.bind fun result => ?_).releasing fun _ => rfl) hasks
  split
  · exact ⟨fun _ => rfl, fun _ => trivial⟩
  · trivial

/-- A mutation that is refused or has nothing to write ends at once. -/
theorem raises_or_ended (hk : k.raisesLoading = true) (o : Orchestrator) :
    Raises k.call o ∨ ∃ a s, k.call.pause o = (.ended a, s) ∧ s.loading = o.loading := by
  cases k with
  | loadCatalog | editSchedule => cases hk
  | load => exact .inl (raises_load o)
  | mutate m =>
    cases hup : o.mutationPending with
    | true => exact .inr ⟨_, _, pause_mutate_busy hup m, rfl⟩
    | false =>
      have hpause : (Command.mutate m).call.pause o =
          ((attempt m o).releasing (setPending false)).pause (o.setPending true) :=
        pause_mutate_free hup m
      rw [Raises, hpause]
      unfold attempt
      rcases m.plan o.policy o.catalog with f | _ | edit
      · exact .inr ⟨_, _, rfl, rfl⟩
      · exact .inr ⟨_, _, rfl, rfl⟩
      · exact .inl (raises_carryOut m _ _)

theorem lowers_of_start (hp : k.call.pause o = (.asks q abandon next, s)) :
    Lowers k (.ask q abandon next) := by
  constructor
  · intro hk
    rcases raises_or_ended hk o with ⟨q', abandon', next', s', hasks, -, hrest⟩ | ⟨a, s', hended, -⟩
    · cases hasks.symm.trans hp
      exact hrest
    · cases hended.symm.trans hp
  · exact fun hk => (keeps_loading_call hk).asks hp

theorem Flagged.settle (h : Flagged x) (hfate : ∀ q, (fate q).isWaiting = false) (n : Nat) :
    Flagged (x.settle n fate) :=
  ⟨h.toOneEach.settle hfate n, Shared.ifWaiting_settle h.lowers hfate n⟩

theorem Flagged.proceed (h : Flagged x) (hi : i < x.started)
    (hfree : ∀ e ∈ x.sent, e.isWaiting = true → e.caller ≠ i)
    (hc : ∀ q abandon next s, c.pause x.object = (.asks q abandon next, s) →
      Lowers k (.ask q abandon next)) : Flagged (x.proceed i k c) := by
  refine ⟨h.toOneEach.proceed hi hfree k c, ?_⟩
  unfold Shared.proceed
  rcases hp : c.pause x.object with ⟨a | ⟨q, abandon, next⟩, s⟩
  · exact h.lowers
  · intro e he
    rcases List.mem_append.1 he with he | he
    · exact h.lowers e he
    · rw [List.mem_singleton.1 he]
      exact hc q abandon next s hp

theorem Flagged.step (h : Flagged x) (m : Move Command) : Flagged (x.step Command.call m) := by
  have hstep := Shared.step_cases Command.call x m
  generalize x.step Command.call m = y at hstep
  cases hstep with
  | idle => exact h
  | start k =>
    have hnext : Flagged { x with started := x.started + 1 } := ⟨h.next, h.lowers⟩
    exact hnext.proceed (Nat.lt_succ_self _) h.ne_started fun _ _ _ _ hp => lowers_of_start hp
  | @reply n _ k _ q abandon next answers hn =>
    have hmem := List.mem_of_getElem? hn
    have hrest : Lowers k (.ask q abandon next) := h.lowers _ hmem
    exact (h.settle (fun _ => rfl) n).proceed (h.callers _ hmem)
      (h.ne_of_settle hn rfl fun _ => rfl) fun _ _ _ _ hp => (hrest.reply (answers q)).asks hp
  | @drop n _ _ _ _ _ _ hn =>
    have hsettled : Flagged (x.settle n fun _ => .dropped) := h.settle (fun _ => rfl) n
    exact ⟨⟨hsettled.callers, hsettled.single⟩, hsettled.lowers⟩

theorem flagged_new (project : ProjectId) : Flagged (Shared.new (.new project)) :=
  ⟨Shared.oneEach_new _, by simp [Shared.new]⟩

theorem Flagged.after (h : Flagged x) (moves : List (Move Command)) :
    Flagged (x.after Command.call moves) := by
  induction moves generalizing x with
  | nil => exact h
  | cons m moves ih => exact ih (h.step m)

/-- What a move does: one such call begins and the flag goes up, or one ends and the flag comes
down, or neither and the flag stays. -/
inductive Turn (x y : InUse) : Prop where
  | begins (i : Nat) (hx : ¬ x.Working i) (hy : ∀ j, y.Working j ↔ x.Working j ∨ j = i)
    (hup : y.object.loading = true)
  | ends (i : Nat) (hx : x.Working i) (hy : ∀ j, y.Working j ↔ x.Working j ∧ j ≠ i)
    (hdown : y.object.loading = false)
  | stays (hy : ∀ j, y.Working j ↔ x.Working j) (hsame : y.object.loading = x.object.loading)

theorem Turn.of_keeps (hy : ∀ j, y.Working j ↔ x.Working j)
    (hsame : y.object.loading = x.object.loading) (hk : k.raisesLoading = false)
    (hc : c.Keeps loading) (i : Nat) : Turn x (y.proceed i k c) := by
  have hview := hc.pause y.object
  unfold Shared.proceed
  rcases hp : c.pause y.object with ⟨a | ⟨q, abandon, next⟩, s⟩
  · rw [hp] at hview
    exact .stays hy (hview.trans hsame)
  · rw [hp] at hview
    refine .stays (fun j => Shared.underWay_asks.trans ?_) (hview.trans hsame)
    rw [or_iff_left fun hnew => by simp [hk] at hnew]
    exact hy j

theorem Flagged.turn_start (h : Flagged x) (k : Command) :
    Turn x ({ x with started := x.started + 1 }.proceed x.started k k.call) := by
  cases hk : k.raisesLoading with
  | false =>
    refine .of_keeps (fun j => ?_) ?_ hk (keeps_loading_call hk) _
    · exact Iff.rfl
    · rfl
  | true =>
    unfold Shared.proceed
    rcases raises_or_ended hk x.object with ⟨q, abandon, next, s, hp, hs, -⟩ | ⟨a, s, hp, hs⟩
    · rw [hp]
      refine .begins x.started (Shared.not_underWay_started h.toOneEach) (fun j => ?_) hs
      exact Shared.underWay_asks.trans (or_congr_right (and_iff_right hk))
    · rw [hp]
      exact .stays (fun _ => Iff.rfl) hs

theorem Flagged.turn_reply (h : Flagged x)
    (hn : x.sent[n]? = some ⟨i, k, s, q, .waiting abandon next⟩)
    (answers : (q : Request) → q.Reply) :
    Turn x ((x.settle n fun q => .answered (answers q)).proceed i k (next (answers q))) := by
  have hrest : Lowers k (next (answers q)) :=
    Lowers.reply (h.lowers _ (List.mem_of_getElem? hn)) (answers q)
  cases hk : k.raisesLoading with
  | false =>
    refine .of_keeps (fun j => ?_) ?_ hk (hrest.keeps hk) _
    · exact h.underWay_settle_of_not hn rfl (fun _ => rfl) hk
    · rfl
  | true =>
    have hx : x.Working i := (h.underWay_caller hn rfl).2 hk
    have hsettle (j : Nat) : (x.settle n fun q => .answered (answers q)).UnderWay
        Command.raisesLoading j ↔ x.Working j ∧ j ≠ i :=
      h.underWay_settle hn rfl fun _ => rfl
    change Turn x (Shared.record i k _ ((next (answers q)).pause x.object))
    rcases hp : (next (answers q)).pause x.object with ⟨a | ⟨q', abandon', next'⟩, s'⟩
    · exact .ends i hx hsettle ((hrest.releases hk).ended hp)
    · refine .stays (fun j => Shared.underWay_asks.trans ?_) ((hrest.releases hk).asks hp).1
      -- the call is in flight with its next request as it was with this one
      rw [hsettle, and_iff_right hk]
      by_cases hj : j = i <;> simp [hj, hx]

theorem Flagged.turn_drop (h : Flagged x)
    (hn : x.sent[n]? = some ⟨i, k, s, q, .waiting abandon next⟩) :
    Turn x { x.settle n fun _ => .dropped with object := abandon x.object } := by
  have hrest : Lowers k (.ask q abandon next) := h.lowers _ (List.mem_of_getElem? hn)
  cases hk : k.raisesLoading with
  | false =>
    refine .stays (fun j => ?_) ((hrest.keeps hk).1 x.object)
    exact h.underWay_settle_of_not hn rfl (fun _ => rfl) hk
  | true =>
    refine .ends i ((h.underWay_caller hn rfl).2 hk) (fun j => ?_) ((hrest.releases hk).1 x.object)
    exact h.underWay_settle hn rfl fun _ => rfl

theorem Flagged.turn (h : Flagged x) (m : Move Command) : Turn x (x.step Command.call m) := by
  have hstep := Shared.step_cases Command.call x m
  generalize x.step Command.call m = y at hstep
  cases hstep with
  | idle => exact .stays (fun _ => Iff.rfl) rfl
  | start k => exact h.turn_start k
  | reply answers hn => exact h.turn_reply hn answers
  | drop hn => exact h.turn_drop hn

def InUse.OneBegins (x y : InUse) : Prop :=
  ∃ i, ¬ x.Working i ∧ y.Working i

def InUse.OneEnds (x y : InUse) : Prop :=
  ∃ i, x.Working i ∧ ¬ y.Working i

theorem Turn.loading_iff (h : Turn x y) :
    y.object.loading = true ↔ x.OneBegins y ∨ x.object.loading = true ∧ ¬ x.OneEnds y := by
  cases h with
  | begins i hx hy hup => exact iff_of_true hup (.inl ⟨i, hx, (hy i).2 (.inr rfl)⟩)
  | ends i hx hy hdown =>
    have hends : x.OneEnds y := ⟨i, hx, fun hi => ((hy i).1 hi).2 rfl⟩
    have hnone : ¬ x.OneBegins y := by
      rintro ⟨j, hj, hj'⟩
      exact hj ((hy j).1 hj').1
    simp [hdown, hends, hnone]
  | stays hy hsame =>
    have hkept : ¬ x.OneEnds y := by
      rintro ⟨j, hj, hj'⟩
      exact hj' ((hy j).2 hj)
    have hnone : ¬ x.OneBegins y := by
      rintro ⟨j, hj, hj'⟩
      exact hj ((hy j).1 hj')
    simp [hsame, hkept, hnone]

section

variable {states : Nat → InUse} (hturn : ∀ n, Turn (states n) (states (n + 1)))

include hturn

theorem loading_iff_since (hstart : (states 0).object.loading = false) (t : Nat) :
    (states t).object.loading = true ↔
      ∃ n < t, (states n).OneBegins (states (n + 1)) ∧
        ∀ k, n < k → k < t → ¬ (states k).OneEnds (states (k + 1)) := by
  induction t with
  | zero => simp [hstart]
  | succ t ih =>
    rw [(hturn t).loading_iff, ih]
    constructor
    · rintro (hbegins | ⟨⟨n, hn, hbegins, hkept⟩, hlast⟩)
      · exact ⟨t, Nat.lt_succ_self t, hbegins, fun k hk hkt => by omega⟩
      · refine ⟨n, Nat.lt_succ_of_lt hn, hbegins, fun k hk hkt => ?_⟩
        rcases Nat.lt_succ_iff_lt_or_eq.1 hkt with hlt | rfl
        · exact hkept k hk hlt
        · exact hlast
    · rintro ⟨n, hn, hbegins, hkept⟩
      rcases Nat.lt_succ_iff_lt_or_eq.1 hn with hlt | rfl
      · exact .inr ⟨⟨n, hlt, hbegins, fun k hk hkt => hkept k hk (Nat.lt_succ_of_lt hkt)⟩,
          hkept t hlt (Nat.lt_succ_self t)⟩
      · exact .inl hbegins

theorem exists_working_of_loading (hstart : (states 0).object.loading = false) {t : Nat}
    (hup : (states t).object.loading = true) : ∃ i, (states t).Working i := by
  induction t with
  | zero =>
    rw [hstart] at hup
    cases hup
  | succ t ih =>
    cases hturn t with
    | begins i hx hy _ => exact ⟨i, (hy i).2 (.inr rfl)⟩
    | ends i hx hy hdown =>
      rw [hdown] at hup
      cases hup
    | stays hy hsame =>
      obtain ⟨i, hi⟩ := ih (hsame ▸ hup)
      exact ⟨i, (hy i).2 hi⟩

theorem loading_of_working (hstart : ∀ i, ¬ (states 0).Working i) {t : Nat}
    (halone : ∀ n ≤ t, ∀ i j, (states n).Working i → (states n).Working j → i = j) {i : Nat}
    (hi : (states t).Working i) : (states t).object.loading = true := by
  induction t generalizing i with
  | zero => exact absurd hi (hstart i)
  | succ t ih =>
    cases hturn t with
    | begins i _ _ hup => exact hup
    | ends j hx hy _ =>
      -- one call ended while another was still in flight: before the move they overlapped
      obtain ⟨hold, hne⟩ := (hy i).1 hi
      exact absurd (halone t (Nat.le_succ t) i j hold hx) hne
    | stays hy hsame =>
      rw [hsame]
      exact ih (fun n hn => halone n (Nat.le_succ_of_le hn)) ((hy i).1 hi)

end

/-- Along any history the flag is up from the moment that a load or the write of a mutation begins
until the first of those in flight ends. So it is never up for nothing, and it is right as long as
no two of them overlap. -/
theorem loading_until_first_end (project : ProjectId) (moves : List (Move Command)) (t : Nat) :
    let states (n : Nat) : InUse :=
      (Shared.new (.new project)).after Command.call (moves.take n)
    ((states t).object.loading = true ↔
        ∃ n < t, (states n).OneBegins (states (n + 1)) ∧
          ∀ k, n < k → k < t → ¬ (states k).OneEnds (states (k + 1))) ∧
      ((states t).object.loading = true → ∃ i, (states t).Working i) ∧
      ((∀ n ≤ t, ∀ i j, (states n).Working i → (states n).Working j → i = j) →
        ∀ i, (states t).Working i → (states t).object.loading = true) := by
  intro states
  have hflagged (n : Nat) : Flagged (states n) := (flagged_new project).after (moves.take n)
  have hturn (n : Nat) : Turn (states n) (states (n + 1)) := by
    have hnext : states (n + 1) = (states n).after Command.call moves[n]?.toList := by
      simp only [states, Shared.after, List.take_add_one, List.foldl_append]
    rw [hnext]
    cases moves[n]? with
    | none => exact .stays (fun _ => Iff.rfl) rfl
    | some m => exact (hflagged n).turn m
  refine ⟨loading_iff_since hturn rfl t, exists_working_of_loading hturn rfl, ?_⟩
  intro halone i hi
  refine loading_of_working hturn ?_ halone hi
  rintro j ⟨e, he, -⟩
  cases he

/-- Two loads overlap, and the second ends: nothing says that the first is still in flight. -/
theorem loading_down_in_flight :
    let answers (q : Request) : q.Reply := (LocalService.service q .empty).1
    let x : InUse := (Shared.new (.new 1)).after Command.call
      [.start .load, .start .load, .reply 1 answers]
    x.Working 0 ∧ x.object.loading = false := by
  intro answers x
  exact ⟨⟨_, List.mem_of_getElem? (i := 0) rfl, rfl, rfl, rfl⟩, rfl⟩

/-- A load that ends takes the flag down for a mutation that waits for its write. -/
example :
    let answers (q : Request) : q.Reply := (LocalService.service q .empty).1
    let x : InUse := (Shared.new (.new 1)).after Command.call
      [.start (.mutate (.setTrigger dailyCron)), .start .load, .reply 1 answers]
    x.object.mutationPending = true ∧ x.object.loading = false :=
  ⟨rfl, rfl⟩

end TagRetention.Client.Orchestrator
