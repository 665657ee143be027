import TagRetention.Proofs.Client.Shared

/-!
Which calls on a shared object are under way. A call waits for one request at a time, so a move
concerns one call and changes nothing for the others.
-/

namespace TagRetention.Client.Shared

variable {κ σ α : Type} {call : κ → Call σ α} {p : κ → Bool} {x : Shared κ σ α}
  {d e : Errand κ σ α} {fate : (q : Request) → Fate σ α q} {n m i j : Nat}

/-- The call is of such a kind and waits for a reply. -/
def UnderWay (p : κ → Bool) (x : Shared κ σ α) (i : Nat) : Prop :=
  ∃ e ∈ x.sent, e.caller = i ∧ p e.kind = true ∧ e.isWaiting = true

/-- Calls are numbered as they begin, and none waits for two requests. -/
structure OneEach (x : Shared κ σ α) : Prop where
  callers : ∀ e ∈ x.sent, e.caller < x.started
  single : ∀ (n m : Nat) (d e : Errand κ σ α), x.sent[n]? = some d → x.sent[m]? = some e →
    d.isWaiting = true → e.isWaiting = true → d.caller = e.caller → n = m

theorem getElem?_of_settle (hfate : ∀ q, (fate q).isWaiting = false)
    (hm : (x.settle n fate).sent[m]? = some e) (hwaits : e.isWaiting = true) :
    m ≠ n ∧ x.sent[m]? = some e := by
  rw [getElem?_settle] at hm
  split at hm
  · obtain ⟨d, -, rfl⟩ := Option.map_eq_some_iff.1 hm
    have hsettled : (fate d.request).isWaiting = true := hwaits
    rw [hfate] at hsettled
    cases hsettled
  · rename_i hne
    exact ⟨Ne.symm hne, hm⟩

theorem OneEach.settle (h : OneEach x) (hfate : ∀ q, (fate q).isWaiting = false) (n : Nat) :
    OneEach (x.settle n fate) := by
  constructor
  · intro e he
    obtain ⟨d, hd, rfl | rfl⟩ := mem_settle he
    · exact h.callers e hd
    · exact h.callers d hd
  · intro i j d e hi hj hd he
    exact h.single i j d e (getElem?_of_settle hfate hi hd).2 (getElem?_of_settle hfate hj he).2
      hd he

theorem OneEach.ne_of_settle (h : OneEach x) (hn : x.sent[n]? = some d)
    (hd : d.isWaiting = true) (hfate : ∀ q, (fate q).isWaiting = false) :
    ∀ e ∈ (x.settle n fate).sent, e.isWaiting = true → e.caller ≠ d.caller := by
  intro e he hwaits hcaller
  obtain ⟨m, hm⟩ := List.mem_iff_getElem?.1 he
  obtain ⟨hne, hget⟩ := getElem?_of_settle hfate hm hwaits
  exact hne (h.single m n e d hget hn hwaits hd hcaller)

theorem OneEach.proceed (h : OneEach x) (hi : i < x.started)
    (hfree : ∀ e ∈ x.sent, e.isWaiting = true → e.caller ≠ i) (k : κ) (c : Call σ α) :
    OneEach (x.proceed i k c) := by
  unfold Shared.proceed
  rcases c.pause x.object with ⟨a | ⟨q, abandon, next⟩, s⟩
  · exact ⟨h.callers, h.single⟩
  · constructor
    · intro e he
      rcases List.mem_append.1 he with he | he
      · exact h.callers e he
      · rw [List.mem_singleton.1 he]
        exact hi
    · intro n m d e hd he hwaits hwaits' hcaller
      rcases getElem?_concat_eq_some_iff.1 hd with hd | ⟨rfl, rfl⟩
      · rcases getElem?_concat_eq_some_iff.1 he with he | ⟨rfl, rfl⟩
        · exact h.single n m d e hd he hwaits hwaits' hcaller
        · exact absurd hcaller (hfree d (List.mem_of_getElem? hd) hwaits)
      · rcases getElem?_concat_eq_some_iff.1 he with he | ⟨rfl, -⟩
        · exact absurd hcaller.symm (hfree e (List.mem_of_getElem? he) hwaits')
        · rfl

theorem OneEach.ne_started (h : OneEach x) :
    ∀ e ∈ x.sent, e.isWaiting = true → e.caller ≠ x.started :=
  fun e he _ => Nat.ne_of_lt (h.callers e he)

theorem OneEach.next (h : OneEach x) : OneEach { x with started := x.started + 1 } :=
  ⟨fun e he => Nat.lt_succ_of_lt (h.callers e he), h.single⟩

theorem OneEach.step (h : OneEach x) (m : Move κ) : OneEach (x.step call m) := by
  have hstep := step_cases call x m
  generalize x.step call m = y at hstep
  cases hstep with
  | idle => exact h
  | start k => exact h.next.proceed (Nat.lt_succ_self _) h.ne_started k (call k)
  | reply answers hn =>
    exact (h.settle (fun _ => rfl) _).proceed (h.callers _ (List.mem_of_getElem? hn))
      (h.ne_of_settle hn rfl fun _ => rfl) _ _
  | @drop n _ _ _ _ _ _ hn =>
    have hsettled : OneEach (x.settle n fun _ => .dropped) := h.settle (fun _ => rfl) n
    exact ⟨hsettled.callers, hsettled.single⟩

theorem oneEach_new (s : σ) : OneEach (new s : Shared κ σ α) := by
  constructor <;> simp [new]

theorem not_underWay_started (h : OneEach x) : ¬ x.UnderWay p x.started := by
  rintro ⟨e, he, hcaller, -, hwaits⟩
  exact h.ne_started e he hwaits hcaller

theorem underWay_asks {k : κ} {q : Request} {abandon : σ → σ} {next : q.Reply → Call σ α} {s : σ} :
    (x.record i k (.asks q abandon next, s)).UnderWay p j ↔
      x.UnderWay p j ∨ p k = true ∧ j = i := by
  constructor
  · rintro ⟨e, he, rfl, hp, hwaits⟩
    rcases List.mem_append.1 he with he | he
    · exact .inl ⟨e, he, rfl, hp, hwaits⟩
    · obtain rfl := List.mem_singleton.1 he
      exact .inr ⟨hp, rfl⟩
  · rintro (⟨e, he, hcaller, hp, hwaits⟩ | ⟨hp, rfl⟩)
    · exact ⟨e, List.mem_append_left _ he, hcaller, hp, hwaits⟩
    · exact ⟨_, List.mem_append_right _ List.mem_cons_self, rfl, hp, rfl⟩

theorem OneEach.underWay_settle (h : OneEach x) (hn : x.sent[n]? = some d)
    (hd : d.isWaiting = true) (hfate : ∀ q, (fate q).isWaiting = false) :
    (x.settle n fate).UnderWay p j ↔ x.UnderWay p j ∧ j ≠ d.caller := by
  constructor
  · rintro ⟨e, he, rfl, hp, hwaits⟩
    obtain ⟨m, hm⟩ := List.mem_iff_getElem?.1 he
    exact ⟨⟨e, List.mem_of_getElem? (getElem?_of_settle hfate hm hwaits).2, rfl, hp, hwaits⟩,
      h.ne_of_settle hn hd hfate e he hwaits⟩
  · rintro ⟨⟨e, he, rfl, hp, hwaits⟩, hne⟩
    obtain ⟨m, hm⟩ := List.mem_iff_getElem?.1 he
    have hnm : n ≠ m := by
      rintro rfl
      exact hne (congrArg Errand.caller (Option.some.inj (hm.symm.trans hn)))
    refine ⟨e, List.mem_of_getElem? (i := m) ?_, rfl, hp, hwaits⟩
    rw [getElem?_settle, if_neg hnm, hm]

/-- A call waits for one request, so it is of the kind of that request. -/
theorem OneEach.underWay_caller (h : OneEach x) (hn : x.sent[n]? = some d)
    (hd : d.isWaiting = true) : x.UnderWay p d.caller ↔ p d.kind = true := by
  constructor
  · rintro ⟨e, he, hcaller, hp, hwaits⟩
    obtain ⟨m, hm⟩ := List.mem_iff_getElem?.1 he
    obtain rfl := h.single m n e d hm hn hwaits hd hcaller
    rwa [Option.some.inj (hm.symm.trans hn)] at hp
  · exact fun hp => ⟨d, List.mem_of_getElem? hn, rfl, hp, hd⟩

theorem OneEach.underWay_settle_of_not (h : OneEach x) (hn : x.sent[n]? = some d)
    (hd : d.isWaiting = true) (hfate : ∀ q, (fate q).isWaiting = false) (hp : p d.kind = false) :
    (x.settle n fate).UnderWay p j ↔ x.UnderWay p j := by
  rw [h.underWay_settle hn hd hfate, and_iff_left_of_imp]
  rintro hj rfl
  rw [h.underWay_caller hn hd, hp] at hj
  cases hj

end TagRetention.Client.Shared
