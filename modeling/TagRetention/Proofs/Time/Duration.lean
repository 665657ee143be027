import Mathlib.Logic.ExistsUnique
import TagRetention.Proofs.Text.Numeral
import TagRetention.Time.Duration

/-!
What the text of a duration says. It counts the whole seconds of the span in minutes and seconds,
and unless there are none, they can be read off it.
-/

namespace TagRetention

namespace Instant

def nanoseconds (a : Instant) : Int :=
  a.seconds * billion + a.nanos

/-- Rounded down. -/
def wholeSeconds (start finish : Instant) : Int :=
  (finish.nanoseconds - start.nanoseconds) / billion

variable {a b : Instant}

theorem span_eq (ha : a.inLeapSecond = false) (hb : b.inLeapSecond = false) :
    a.span b = b.nanoseconds - a.nanoseconds := by
  simp only [span, ha, hb, Bool.false_eq_true, and_false, if_false, nanoseconds, billion]
  omega

theorem millis_div (h : 0 ≤ a.span b) : a.millis b / 1000 = a.span b / billion := by
  rw [millis, Int.tdiv_eq_ediv_of_nonneg h, billion]
  omega

theorem millis_nonpos (h : a.span b < 0) : a.millis b ≤ 0 := by
  have hneg := Int.neg_tdiv (-a.span b) 1000000
  have hpos : 0 ≤ (-a.span b).tdiv 1000000 := Int.tdiv_nonneg (by omega) (by decide)
  rw [Int.neg_neg] at hneg
  rw [millis]
  omega

end Instant

/-- A count and its unit, left out where there is none. -/
def counted (n : Int) (unit : String) : List Char :=
  if 0 < n then Text.numeral n ++ unit.toList else []

def clock (minutes seconds : Int) : List Char :=
  counted minutes "min" ++ counted seconds "sec"

/-- The number in front, and if it is one of minutes, the seconds after it. -/
def readClock (s : List Char) : Nat :=
  let n := Nat.ofDigitChars 10 (s.takeWhile Char.isDigit) 0
  match s.dropWhile Char.isDigit with
  | 'm' :: 'i' :: 'n' :: r => 60 * n + Nat.ofDigitChars 10 (r.takeWhile Char.isDigit) 0
  | _ => n

variable {m s n millis : Int} {a b c d : Instant}

theorem toList_counted (n : Int) (unit : String) :
    (if 0 < n then toString n ++ unit else "").toList = counted n unit := by
  unfold counted
  split
  · rw [String.toList_append, Text.toList_toString_int]
  · rfl

theorem counted_of_pos (hn : 0 < n) (unit : String) :
    counted n unit = Nat.toDigits 10 n.natAbs ++ unit.toList := by
  rw [counted, if_pos hn, Text.numeral, if_neg (by omega)]

theorem leading_counted (hs : 0 ≤ s) :
    (Nat.ofDigitChars 10 ((counted s "sec").takeWhile Char.isDigit) 0 : Int) = s := by
  rcases Int.lt_or_eq_of_le hs with hpos | rfl
  · rw [counted_of_pos hpos, Text.takeWhile_digits _ (by simp), Nat.ofDigitChars_ten_toDigits]
    exact Int.natAbs_of_nonneg hs
  · rfl

theorem readClock_clock (hm : 0 ≤ m) (hs : 0 ≤ s) : (readClock (clock m s) : Int) = 60 * m + s := by
  have hsec := leading_counted hs
  rcases Int.lt_or_eq_of_le hm with hmpos | rfl
  · have htext : clock m s = Nat.toDigits 10 m.natAbs ++ 'm' :: 'i' :: 'n' :: counted s "sec" := by
      rw [clock, counted_of_pos hmpos, List.append_assoc]
      rfl
    have hmin : ∀ c ∈ ('m' :: 'i' :: 'n' :: counted s "sec").head?, c.isDigit = false := by
      simp
    simp only [readClock, htext, Text.takeWhile_digits _ hmin, Text.dropWhile_digits _ hmin,
      Nat.ofDigitChars_ten_toDigits]
    omega
  · have htext : clock 0 s = counted s "sec" := rfl
    rcases Int.lt_or_eq_of_le hs with hspos | rfl
    · have hrest : (counted s "sec").dropWhile Char.isDigit = ['s', 'e', 'c'] := by
        rw [counted_of_pos hspos, Text.dropWhile_digits _ (by simp)]
        rfl
      simp only [readClock, htext, hrest]
      exact hsec.trans (by omega)
    · rfl

theorem durationText_of_le (h : millis / 1000 ≤ 0) : durationText millis = "0" := by
  apply if_pos
  by_cases hpos : 0 < millis
  · have hnonneg : 0 ≤ millis := by omega
    rw [Int.tmod_eq_emod_of_nonneg hnonneg, Int.tdiv_eq_ediv_of_nonneg hnonneg,
      Int.tdiv_eq_ediv_of_nonneg (by omega)]
    omega
  · omega

theorem toList_durationText (h : 0 < millis / 1000) :
    (durationText millis).toList = clock (millis / 1000 / 60) (millis / 1000 % 60) := by
  have hnonneg : 0 ≤ millis := by omega
  have hminutes : millis.tdiv 60000 = millis / 1000 / 60 := by
    rw [Int.tdiv_eq_ediv_of_nonneg hnonneg]
    omega
  have hseconds : (millis.tmod 60000).tdiv 1000 = millis / 1000 % 60 := by
    rw [Int.tmod_eq_emod_of_nonneg hnonneg, Int.tdiv_eq_ediv_of_nonneg (by omega)]
    omega
  have hshown : ¬ (millis ≤ 0 ∨ millis / 1000 / 60 = 0 ∧ millis / 1000 % 60 = 0) := by
    omega
  simp only [durationText, hminutes, hseconds]
  rw [if_neg hshown, String.toList_append, toList_counted, toList_counted, clock]

theorem formatDuration_of_le (ha : a.inLeapSecond = false) (hb : b.inLeapSecond = false)
    (h : a.wholeSeconds b ≤ 0) : formatDuration (some a) (some b) = "0" := by
  apply durationText_of_le
  rw [Instant.wholeSeconds, ← Instant.span_eq ha hb] at h
  by_cases hspan : 0 ≤ a.span b
  · rwa [Instant.millis_div hspan]
  · have := Instant.millis_nonpos (Int.not_le.mp hspan)
    omega

theorem toList_formatDuration (ha : a.inLeapSecond = false) (hb : b.inLeapSecond = false)
    (h : 0 < a.wholeSeconds b) :
    (formatDuration (some a) (some b)).toList =
      clock (a.wholeSeconds b / 60) (a.wholeSeconds b % 60) := by
  have hspan : 0 ≤ a.span b := by
    rw [Instant.span_eq ha hb]
    rw [Instant.wholeSeconds, Instant.billion] at h
    omega
  have hmillis : a.millis b / 1000 = a.wholeSeconds b := by
    rw [Instant.millis_div hspan, Instant.span_eq ha hb, Instant.wholeSeconds]
  rw [formatDuration, toList_durationText (hmillis ▸ h), hmillis]

theorem readClock_formatDuration (ha : a.inLeapSecond = false) (hb : b.inLeapSecond = false)
    (h : 0 < a.wholeSeconds b) :
    (readClock (formatDuration (some a) (some b)).toList : Int) = a.wholeSeconds b := by
  rw [toList_formatDuration ha hb h, readClock_clock (by omega) (by omega)]
  omega

theorem formatDuration_eq_iff (ha : a.inLeapSecond = false) (hb : b.inLeapSecond = false)
    (hc : c.inLeapSecond = false) (hd : d.inLeapSecond = false) (hab : 0 < a.wholeSeconds b)
    (hcd : 0 < c.wholeSeconds d) :
    formatDuration (some a) (some b) = formatDuration (some c) (some d) ↔
      a.wholeSeconds b = c.wholeSeconds d := by
  constructor
  · intro htext
    rw [← readClock_formatDuration ha hb hab, htext, readClock_formatDuration hc hd hcd]
  · intro hseconds
    rw [← String.toList_inj, toList_formatDuration ha hb hab, toList_formatDuration hc hd hcd,
      hseconds]

/-- The text of a duration says how many whole seconds it has, and no more. -/
theorem whole_seconds_displayed (ha : a.inLeapSecond = false) (hb : b.inLeapSecond = false) :
    let k := a.wholeSeconds b
    let text := formatDuration (some a) (some b)
    (k ≤ 0 → text = "0") ∧
      (0 < k →
        (∃! p : Int × Int,
          k = 60 * p.1 + p.2 ∧ 0 ≤ p.2 ∧ p.2 < 60 ∧ text.toList = clock p.1 p.2) ∧
        text ≠ "0" ∧ text ≠ notAvailable ∧ text ≠ "" ∧
        ∀ c d : Instant, c.inLeapSecond = false → d.inLeapSecond = false →
          0 < c.wholeSeconds d →
            (text = formatDuration (some c) (some d) ↔ k = c.wholeSeconds d)) := by
  intro k text
  refine ⟨formatDuration_of_le ha hb, fun h => ?_⟩
  have hread : (readClock text.toList : Int) = k := readClock_formatDuration ha hb h
  -- nothing is read off the texts that stand for no duration
  have hne : ∀ other : String, readClock other.toList = 0 → text ≠ other := by
    rintro other hzero rfl
    omega
  refine ⟨⟨(k / 60, k % 60), ⟨by omega, by omega, by omega, toList_formatDuration ha hb h⟩, ?_⟩,
    hne "0" rfl, hne notAvailable rfl, hne "" rfl,
    fun c d hc hd hcd => formatDuration_eq_iff ha hb hc hd h hcd⟩
  rintro ⟨m, s⟩ ⟨hk, hs, hlt, -⟩
  simp only [Prod.mk.injEq]
  omega

/-- A start later within its second than the end in its own. -/
theorem whole_seconds_displayed_of_borrow :
    let a : Instant := ⟨1714564799, 900000000⟩
    let b : Instant := ⟨1714564864, 100000000⟩
    a.inLeapSecond = false ∧ b.inLeapSecond = false ∧ a.wholeSeconds b = 64 ∧
      formatDuration (some a) (some b) = "1min4sec" ∧
      (∃! p : Int × Int, a.wholeSeconds b = 60 * p.1 + p.2 ∧ 0 ≤ p.2 ∧ p.2 < 60 ∧
        (formatDuration (some a) (some b)).toList = clock p.1 p.2) ∧
      ∀ c d : Instant, c.inLeapSecond = false → d.inLeapSecond = false → 0 < c.wholeSeconds d →
        ("1min4sec" = formatDuration (some c) (some d) ↔ 64 = c.wholeSeconds d) := by
  intro a b
  have hk : a.wholeSeconds b = 64 := by decide
  have htext : formatDuration (some a) (some b) = "1min4sec" := by decide
  obtain ⟨hparts, -, -, -, hsame⟩ :=
    (whole_seconds_displayed (a := a) (b := b) (by decide) (by decide)).2 (by decide)
  rw [htext, hk] at hsame
  exact ⟨by decide, by decide, hk, htext, hparts, hsame⟩

end TagRetention
