import TagRetention.Client.Listing
import TagRetention.Proofs.Client.Shared

/-!
A list with the requests for it. What it shows came with an answer since it was last emptied, and
only the answer to the latest request since then can change it.
-/

namespace TagRetention.Client

variable {ι α : Type}

namespace Listing

variable {ε : Type} {l : Listing α}

theorem finish_of_ne {ticket : Nat} (h : ticket ≠ l.issued) (answer : Except ε (Page α)) :
    l.finish ticket answer = l :=
  if_neg h

theorem issued_finish (l : Listing α) (ticket : Nat) (answer : Except ε (Page α)) :
    (l.finish ticket answer).issued = l.issued := by
  unfold finish
  split
  · cases answer <;> rfl
  · rfl

theorem eq_issued_of_shows {ticket : Nat} {answer : Except ε (Page α)}
    (h : l.shows ticket answer = true) : ticket = l.issued :=
  eq_of_beq (Bool.and_eq_true_iff.1 h).1

theorem items_finish_of_not_shows {ticket : Nat} {answer : Except ε (Page α)}
    (h : l.shows ticket answer = false) : (l.finish ticket answer).items = l.items := by
  unfold finish
  split
  · rename_i hticket
    cases answer with
    | error f => rfl
    | ok page => simp [shows, hticket, Except.isOk, Except.toBool] at h
  · rfl

theorem loading_finish (l : Listing α) (answer : Except ε (Page α)) :
    (l.finish l.issued answer).loading = false := by
  cases answer <;> simp [finish]

end Listing

/-- A request for a list: what of, under which number, and how it was answered. -/
structure Entry (ι α : Type) where
  subject : ι
  ticket : Nat
  answer : Option (Except ServiceFault (Page α))

/-- All requests in the order they were sent, without a word on those for anything else. -/
abbrev Ledger (ι α : Type) := List (Option (Entry ι α))

namespace Ledger

/-- The latest request for the list is the `n`-th of all, sent since the list was emptied. -/
structure Current (es : Ledger ι α) (since n : Nat) (e : Entry ι α) : Prop where
  get : es[n]? = some (some e)
  since_le : since ≤ n
  last : ∀ (m : Nat) (d : Entry ι α), es[m]? = some (some d) → m ≤ n

/-- The list was emptied when `since` requests had been sent; those for it since are about subjects
that satisfy `P`. -/
structure Sound (P : ι → Prop) (l : Listing α) (es : Ledger ι α) (since : Nat) : Prop where
  since_le : since ≤ es.length
  le_issued : ∀ (n : Nat) (e : Entry ι α), es[n]? = some (some e) → e.ticket ≤ l.issued
  fresh : ∀ (n : Nat) (e : Entry ι α), es[n]? = some (some e) →
    (e.ticket = l.issued ↔ Current es since n e)
  loading : l.loading = true ↔ ∃ n e, Current es since n e ∧ e.answer = none
  shown : l.items = [] ∧ l.total = 0 ∨
    ∃ (n : Nat) (e : Entry ι α), es[n]? = some (some e) ∧ since ≤ n ∧
      e.answer = some (.ok ⟨l.items, l.total⟩)
  about : ∀ (n : Nat) (e : Entry ι α), es[n]? = some (some e) → since ≤ n → P e.subject

variable {P : ι → Prop} {es : Ledger ι α} {a e : Entry ι α} {l l' : Listing α} {n m since : Nat}

theorem Current.eq {d : Entry ι α} (h : Current es since n e) (h' : Current es since m d) :
    n = m :=
  Nat.le_antisymm (h'.last n e h.get) (h.last m d h'.get)

theorem lt_length (hn : es[n]? = some (some e)) : n < es.length :=
  (List.getElem?_eq_some_iff.1 hn).1

theorem getElem?_append_none :
    (es ++ [none])[n]? = some (some e) ↔ es[n]? = some (some e) := by
  rw [Shared.getElem?_concat_eq_some_iff]
  simp

theorem getElem?_append_some :
    (es ++ [some a])[n]? = some (some e) ↔ es[n]? = some (some e) ∨ n = es.length ∧ e = a := by
  rw [Shared.getElem?_concat_eq_some_iff, Option.some_inj, eq_comm (a := a)]

theorem getElem?_set_some (hn : es[n]? = some (some e)) {d : Entry ι α} :
    (es.set n (some a))[m]? = some (some d) ↔
      m = n ∧ d = a ∨ m ≠ n ∧ es[m]? = some (some d) := by
  by_cases hm : m = n
  · rw [hm, List.getElem?_set_self (lt_length hn)]
    simp [eq_comm]
  · rw [List.getElem?_set_ne (Ne.symm hm)]
    simp [hm]

theorem current_append_none : Current (es ++ [none]) since n e ↔ Current es since n e := by
  constructor <;> rintro ⟨hn, hle, hlast⟩
  · exact ⟨getElem?_append_none.1 hn, hle, fun m d hd => hlast m d (getElem?_append_none.2 hd)⟩
  · exact ⟨getElem?_append_none.2 hn, hle, fun m d hd => hlast m d (getElem?_append_none.1 hd)⟩

theorem current_append_some (hsince : since ≤ es.length) :
    Current (es ++ [some a]) since n e ↔ n = es.length ∧ e = a := by
  constructor
  · rintro ⟨hn, -, hlast⟩
    rcases getElem?_append_some.1 hn with hn | hnew
    · have hle := hlast es.length a (getElem?_append_some.2 (.inr ⟨rfl, rfl⟩))
      exact absurd (lt_length hn) (Nat.not_lt.2 hle)
    · exact hnew
  · rintro ⟨rfl, rfl⟩
    refine ⟨getElem?_append_some.2 (.inr ⟨rfl, rfl⟩), hsince, ?_⟩
    intro m d hd
    rcases getElem?_append_some.1 hd with hd | ⟨rfl, -⟩
    · exact Nat.le_of_lt (lt_length hd)
    · exact Nat.le_refl _

theorem current_set (hn : es[n]? = some (some e)) {d : Entry ι α} :
    Current (es.set n (some a)) since m d ↔
      m = n ∧ d = a ∧ Current es since n e ∨ m ≠ n ∧ Current es since m d := by
  -- which requests are for the list stays as it is
  have hsome : ∀ j : Nat, (∃ d, (es.set n (some a))[j]? = some (some d)) ↔
      ∃ d : Entry ι α, es[j]? = some (some d) := by
    intro j
    by_cases hj : j = n
    · exact ⟨fun _ => ⟨e, hj ▸ hn⟩, fun _ => ⟨a, (getElem?_set_some hn).2 (.inl ⟨hj, rfl⟩)⟩⟩
    · rw [List.getElem?_set_ne (Ne.symm hj)]
  have hlast : (∀ (j : Nat) (d : Entry ι α), (es.set n (some a))[j]? = some (some d) → j ≤ m) ↔
      ∀ (j : Nat) (d : Entry ι α), es[j]? = some (some d) → j ≤ m := by
    constructor
    · intro h j d hd
      obtain ⟨d', hd'⟩ := (hsome j).2 ⟨d, hd⟩
      exact h j d' hd'
    · intro h j d hd
      obtain ⟨d', hd'⟩ := (hsome j).1 ⟨d, hd⟩
      exact h j d' hd'
  constructor
  · rintro ⟨hd, hle, hl⟩
    rcases (getElem?_set_some hn).1 hd with ⟨rfl, rfl⟩ | ⟨hne, hd⟩
    · exact .inl ⟨rfl, rfl, hn, hle, hlast.1 hl⟩
    · exact .inr ⟨hne, hd, hle, hlast.1 hl⟩
  · rintro (⟨rfl, rfl, -, hle, hl⟩ | ⟨hne, hd, hle, hl⟩)
    · exact ⟨(getElem?_set_some hn).2 (.inl ⟨rfl, rfl⟩), hle, hlast.2 hl⟩
    · exact ⟨(getElem?_set_some hn).2 (.inr ⟨hne, hd⟩), hle, hlast.2 hl⟩

theorem sound_new (pageSize : Nat) : Sound P (.new pageSize) ([] : Ledger ι α) 0 where
  since_le := Nat.le_refl 0
  le_issued := nofun
  fresh := nofun
  loading := by
    refine iff_of_false Bool.false_ne_true ?_
    rintro ⟨n, e, h, -⟩
    cases h.get
  shown := .inl ⟨rfl, rfl⟩
  about := nofun

theorem Sound.congr (h : Sound P l es since) (hitems : l'.items = l.items)
    (htotal : l'.total = l.total) (hloading : l'.loading = l.loading)
    (hissued : l'.issued = l.issued) : Sound P l' es since where
  since_le := h.since_le
  le_issued := hissued ▸ h.le_issued
  fresh := hissued ▸ h.fresh
  loading := hloading ▸ h.loading
  shown := hitems ▸ htotal ▸ h.shown
  about := h.about

theorem Sound.reset {Q : ι → Prop} (h : Sound P l es since) : Sound Q l.reset es es.length where
  since_le := Nat.le_refl _
  le_issued n e hn := Nat.le_succ_of_le (h.le_issued n e hn)
  fresh n e hn := by
    refine iff_of_false (Nat.ne_of_lt (Nat.lt_succ_of_le (h.le_issued n e hn))) ?_
    intro hcurrent
    exact absurd (lt_length hn) (Nat.not_lt.2 hcurrent.since_le)
  loading := by
    refine iff_of_false Bool.false_ne_true ?_
    rintro ⟨n, e, hcurrent, -⟩
    exact absurd (lt_length hcurrent.get) (Nat.not_lt.2 hcurrent.since_le)
  shown := .inl ⟨rfl, rfl⟩
  about _ _ hn hle := absurd (lt_length hn) (Nat.not_lt.2 hle)

theorem Sound.pass (h : Sound P l es since) : Sound P l (es ++ [none]) since where
  since_le := Nat.le_trans h.since_le (List.length_append ▸ Nat.le_add_right _ _)
  le_issued n e hn := h.le_issued n e (getElem?_append_none.1 hn)
  fresh n e hn := (h.fresh n e (getElem?_append_none.1 hn)).trans current_append_none.symm
  loading := by
    simp only [current_append_none]
    exact h.loading
  shown := by
    simp only [getElem?_append_none]
    exact h.shown
  about n e hn := h.about n e (getElem?_append_none.1 hn)

theorem Sound.begin (h : Sound P l es since) {subject : ι} (hsubject : P subject) :
    Sound P l.begin (es ++ [some ⟨subject, l.ticket, none⟩]) since where
  since_le := Nat.le_trans h.since_le (List.length_append ▸ Nat.le_add_right _ _)
  le_issued n e hn := by
    rcases getElem?_append_some.1 hn with hn | ⟨-, rfl⟩
    · exact Nat.le_succ_of_le (h.le_issued n e hn)
    · exact Nat.le_refl _
  fresh n e hn := by
    rw [current_append_some h.since_le]
    rcases getElem?_append_some.1 hn with hn | ⟨rfl, rfl⟩
    · refine iff_of_false (Nat.ne_of_lt (Nat.lt_succ_of_le (h.le_issued n e hn))) ?_
      rintro ⟨rfl, -⟩
      exact absurd (lt_length hn) (Nat.lt_irrefl _)
    · exact iff_of_true rfl ⟨rfl, rfl⟩
  loading := by
    refine iff_of_true rfl ?_
    exact ⟨_, _, (current_append_some h.since_le).2 ⟨rfl, rfl⟩, rfl⟩
  shown := by
    rcases h.shown with hempty | ⟨n, e, hn, hle, hanswer⟩
    · exact .inl hempty
    · exact .inr ⟨n, e, getElem?_append_some.2 (.inl hn), hle, hanswer⟩
  about n e hn hle := by
    rcases getElem?_append_some.1 hn with hn | ⟨-, rfl⟩
    · exact h.about n e hn hle
    · exact hsubject

theorem Sound.finish (h : Sound P l es since) (hn : es[n]? = some (some e)) (he : e.answer = none)
    (answer : Except ServiceFault (Page α)) :
    Sound P (l.finish e.ticket answer) (es.set n (some { e with answer := some answer })) since := by
  -- what the list showed before came with another answer
  have hkept : l.items = [] ∧ l.total = 0 ∨
      ∃ (m : Nat) (d : Entry ι α), (es.set n (some { e with answer := some answer }))[m]? =
        some (some d) ∧ since ≤ m ∧ d.answer = some (.ok ⟨l.items, l.total⟩) := by
    rcases h.shown with hempty | ⟨m, d, hd, hle, hanswer⟩
    · exact .inl hempty
    · refine .inr ⟨m, d, (getElem?_set_some hn).2 (.inr ⟨?_, hd⟩), hle, hanswer⟩
      rintro rfl
      obtain rfl := Option.some.inj (Option.some.inj (hn.symm.trans hd))
      cases he.symm.trans hanswer
  refine ⟨?_, ?_, ?_, ?_, ?_, ?_⟩
  · rw [List.length_set]
    exact h.since_le
  · intro m d hd
    rw [Listing.issued_finish]
    rcases (getElem?_set_some hn).1 hd with ⟨rfl, rfl⟩ | ⟨-, hd⟩
    · exact h.le_issued _ e hn
    · exact h.le_issued m d hd
  · intro m d hd
    rw [Listing.issued_finish, current_set hn]
    rcases (getElem?_set_some hn).1 hd with ⟨rfl, rfl⟩ | ⟨hne, hd⟩
    · simpa using h.fresh _ e hn
    · simpa [hne] using h.fresh m d hd
  · by_cases hfresh : e.ticket = l.issued
    · have hcurrent := (h.fresh n e hn).1 hfresh
      rw [hfresh, Listing.loading_finish]
      refine iff_of_false Bool.false_ne_true ?_
      rintro ⟨m, d, hd, hnone⟩
      rcases (current_set hn).1 hd with ⟨-, rfl, -⟩ | ⟨hne, hd⟩
      · cases hnone
      · exact hne (hd.eq hcurrent)
    · have hstale : ¬ Current es since n e := fun hcurrent => hfresh ((h.fresh n e hn).2 hcurrent)
      rw [Listing.finish_of_ne hfresh, h.loading]
      simp only [current_set hn, hstale, and_false, false_or]
      constructor
      · rintro ⟨m, d, hd, hnone⟩
        refine ⟨m, d, ⟨?_, hd⟩, hnone⟩
        rintro rfl
        obtain rfl := Option.some.inj (Option.some.inj (hn.symm.trans hd.get))
        exact hstale hd
      · rintro ⟨m, d, ⟨-, hd⟩, hnone⟩
        exact ⟨m, d, hd, hnone⟩
  · by_cases hfresh : e.ticket = l.issued
    · cases answer with
      | error f => simpa only [Listing.finish, hfresh, if_true] using hkept
      | ok page =>
        simp only [Listing.finish, hfresh, if_true]
        exact .inr ⟨n, _, (getElem?_set_some hn).2 (.inl ⟨rfl, rfl⟩),
          ((h.fresh n e hn).1 hfresh).since_le, rfl⟩
    · rw [Listing.finish_of_ne hfresh]
      exact hkept
  · intro m d hd hle
    rcases (getElem?_set_some hn).1 hd with ⟨rfl, rfl⟩ | ⟨-, hd⟩
    · exact h.about m e hn hle
    · exact h.about m d hd hle

end Ledger

end TagRetention.Client
