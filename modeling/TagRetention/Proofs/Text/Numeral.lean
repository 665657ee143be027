import Mathlib.Data.Nat.Digits.Defs
import TagRetention.Text.Numeral

/-!
Numerals that are written and read back. A whole number is written with decimal digits and, if it
is negative, a minus sign, and reads back wherever it is in range.
-/

namespace TagRetention

/-- An integer of so many bits and a sign. -/
def Fits (bits : Nat) (n : Int) : Prop :=
  -2 ^ bits ≤ n ∧ n < 2 ^ bits

instance (bits : Nat) (n : Int) : Decidable (Fits bits n) :=
  inferInstanceAs (Decidable (_ ∧ _))

theorem fits_zero (bits : Nat) : Fits bits 0 := by
  have hpos : (0 : Int) < 2 ^ bits := Int.pow_pos (by decide)
  exact ⟨by omega, hpos⟩

namespace Text

variable {c : Char} {ds : List Char} {limit acc : Nat} {tooBig : NumeralError}

/-- The decimal text of a number. -/
def numeral (n : Int) : List Char :=
  if n < 0 then '-' :: Nat.toDigits 10 n.natAbs else Nat.toDigits 10 n.natAbs

theorem toList_toString_nat (n : Nat) : (toString n).toList = Nat.toDigits 10 n := by
  rw [Nat.toString_eq_ofList_toDigits, String.toList_ofList]

theorem toList_toString_int (n : Int) : (toString n).toList = numeral n := by
  cases n with
  | ofNat n =>
    have hpos : ¬ (Int.ofNat n < 0) := Int.not_lt.mpr (Int.natCast_nonneg n)
    rw [numeral, if_neg hpos]
    exact toList_toString_nat n
  | negSucc n =>
    have hneg : Int.negSucc n < 0 := Int.negSucc_lt_zero n
    rw [numeral, if_pos hneg]
    have htext : toString (Int.negSucc n) = "-" ++ toString (n + 1) := rfl
    rw [htext, String.toList_append, toList_toString_nat]
    rfl

theorem numeral_natCast (n : Nat) : numeral n = Nat.toDigits 10 n := by
  rw [numeral, if_neg (Int.not_lt.mpr (Int.natCast_nonneg n)), Int.natAbs_natCast]

theorem isDigit_of_mem_digits {n : Nat} (h : c ∈ Nat.toDigits 10 n) : c.isDigit = true :=
  Nat.isDigit_of_mem_toDigits (by decide) (by decide) h

theorem takeWhile_digits {rest : List Char} (n : Nat) (h : ∀ c ∈ rest.head?, c.isDigit = false) :
    (Nat.toDigits 10 n ++ rest).takeWhile Char.isDigit = Nat.toDigits 10 n := by
  rw [List.takeWhile_append_of_pos fun _ => isDigit_of_mem_digits]
  cases rest with
  | nil => simp
  | cons c rest => simp [h c rfl]

theorem dropWhile_digits {rest : List Char} (n : Nat) (h : ∀ c ∈ rest.head?, c.isDigit = false) :
    (Nat.toDigits 10 n ++ rest).dropWhile Char.isDigit = rest := by
  rw [List.dropWhile_append_of_pos fun _ => isDigit_of_mem_digits]
  cases rest with
  | nil => rfl
  | cons c rest => simp [h c rfl]

theorem of_mem_numeral {n : Int} (h : c ∈ numeral n) : c = '-' ∨ c.isDigit = true := by
  rw [numeral] at h
  split at h
  · rcases List.mem_cons.mp h with rfl | h
    · exact .inl rfl
    · exact .inr (isDigit_of_mem_digits h)
  · exact .inr (isDigit_of_mem_digits h)

theorem numeral_ne_nil (n : Int) : numeral n ≠ [] := by
  rw [numeral]
  split
  · exact List.cons_ne_nil _ _
  · exact Nat.toDigits_ne_nil

theorem digit?_of_isDigit (h : c.isDigit = true) : digit? c = some (c.toNat - '0'.toNat) := by
  have hrange : '0' ≤ c ∧ c ≤ '9' := by
    simpa [Char.isDigit, Char.le_def] using h
  rw [digit?, if_pos hrange]

theorem le_ofDigitChars (ds : List Char) (acc : Nat) : acc ≤ Nat.ofDigitChars 10 ds acc := by
  rw [Nat.ofDigitChars_eq_ofDigitChars_zero]
  have := Nat.le_mul_of_pos_left acc (Nat.pow_pos (n := ds.length) (show 0 < 10 by decide))
  omega

theorem magnitude_of_digits (hds : ∀ c ∈ ds, c.isDigit = true)
    (hle : Nat.ofDigitChars 10 ds acc ≤ limit) :
    magnitude limit tooBig acc ds = .ok (Nat.ofDigitChars 10 ds acc) := by
  induction ds generalizing acc with
  | nil => rfl
  | cons c ds ih =>
    rw [Nat.ofDigitChars_cons, Nat.mul_comm] at hle ⊢
    have hstep : acc * 10 + (c.toNat - '0'.toNat) ≤ limit :=
      Nat.le_trans (le_ofDigitChars ds _) hle
    rw [magnitude, digit?_of_isDigit (hds c List.mem_cons_self)]
    simp only [hstep, if_true]
    exact ih (fun d hd => hds d (List.mem_cons_of_mem c hd)) hle

theorem magnitude_toDigits {n : Nat} (hle : n ≤ limit) :
    magnitude limit tooBig 0 (Nat.toDigits 10 n) = .ok n := by
  have hvalue : Nat.ofDigitChars 10 (Nat.toDigits 10 n) 0 = n := Nat.ofDigitChars_ten_toDigits
  rw [magnitude_of_digits (fun _ => isDigit_of_mem_digits) (hvalue.symm ▸ hle), hvalue]

theorem readInteger_minus (below above : Nat) (hbelow : below ≠ 0) (hds : ds ≠ []) :
    readInteger below above ('-' :: ds) =
      (magnitude below .tooSmall 0 ds).map fun n => -Int.ofNat n := by
  obtain ⟨c, ds, rfl⟩ := List.exists_cons_of_ne_nil hds
  exact if_neg hbelow

theorem readInteger_plain (below above : Nat) (hc : c.isDigit = true) :
    readInteger below above (c :: ds) = (magnitude above .tooLarge 0 (c :: ds)).map Int.ofNat := by
  have hplus : c ≠ '+' := by
    rintro rfl
    cases hc
  have hminus : c ≠ '-' := by
    rintro rfl
    cases hc
  simp [readInteger, hplus, hminus]

/-- A number in range reads back from its text. -/
theorem readInteger_numeral {below above : Nat} {n : Int} (hlo : -(below : Int) ≤ n)
    (hhi : n ≤ above) : readInteger below above (numeral n) = .ok n := by
  rw [numeral]
  split
  · rename_i hneg
    have hle : n.natAbs ≤ below := by omega
    rw [readInteger_minus below above (by omega) Nat.toDigits_ne_nil, magnitude_toDigits hle]
    have hvalue : -Int.ofNat n.natAbs = n := by
      rw [Int.ofNat_eq_natCast]
      omega
    exact congrArg Except.ok hvalue
  · have hle : n.natAbs ≤ above := by omega
    obtain ⟨c, ds, hds⟩ := List.exists_cons_of_ne_nil
      (Nat.toDigits_ne_nil (n := n.natAbs) (b := 10))
    have hc : c.isDigit = true := isDigit_of_mem_digits (hds ▸ List.mem_cons_self)
    rw [hds, readInteger_plain below above hc, ← hds, magnitude_toDigits hle]
    have hvalue : Int.ofNat n.natAbs = n := by
      rw [Int.ofNat_eq_natCast]
      omega
    exact congrArg Except.ok hvalue

theorem magnitude_le {n : Nat} (hacc : acc ≤ limit) (h : magnitude limit tooBig acc ds = .ok n) :
    n ≤ limit := by
  induction ds generalizing acc with
  | nil =>
    obtain rfl : acc = n := Except.ok.inj h
    exact hacc
  | cons c ds ih =>
    rw [magnitude] at h
    split at h
    · cases h
    · split at h
      · rename_i hstep
        exact ih hstep h
      · cases h

theorem exists_of_map_magnitude {f : Nat → Int} {n : Int}
    (h : (magnitude limit tooBig 0 ds).map f = .ok n) : ∃ k ≤ limit, f k = n := by
  cases hk : magnitude limit tooBig 0 ds with
  | error e =>
    rw [hk] at h
    cases h
  | ok k =>
    rw [hk] at h
    exact ⟨k, magnitude_le (Nat.zero_le limit) hk, Except.ok.inj h⟩

/-- What is read is in range. -/
theorem bounds_of_readInteger {below above : Nat} {s : List Char} {n : Int}
    (h : readInteger below above s = .ok n) : -(below : Int) ≤ n ∧ n ≤ above := by
  unfold readInteger at h
  split at h
  · cases h
  · cases h
  · cases h
  · obtain ⟨k, hk, rfl⟩ := exists_of_map_magnitude h
    simp only [Int.ofNat_eq_natCast]
    omega
  · split at h
    · cases h
    · obtain ⟨k, hk, rfl⟩ := exists_of_map_magnitude h
      simp only [Int.ofNat_eq_natCast]
      omega
  · obtain ⟨k, hk, rfl⟩ := exists_of_map_magnitude h
    simp only [Int.ofNat_eq_natCast]
    omega

theorem fits_of_int64_eq_ok {s : String} {n : Int} (h : int64 s = .ok n) : Fits 63 n := by
  obtain ⟨hlo, hhi⟩ := bounds_of_readInteger h
  exact ⟨by simpa using hlo, Int.lt_of_le_sub_one (by simpa using hhi)⟩

theorem int64_toString {n : Int} (h : Fits 63 n) : int64 (toString n) = .ok n := by
  rw [int64, toList_toString_int]
  exact readInteger_numeral (by simpa using h.1) (by simpa using Int.le_sub_one_of_lt h.2)

theorem natural_toString {bits n : Nat} (h : n < 2 ^ bits) : natural bits (toString n) = .ok n := by
  have hle : n ≤ Nat.pow 2 bits - 1 := Nat.le_sub_one_of_lt h
  rw [natural, toList_toString_nat, ← numeral_natCast,
    readInteger_numeral (by omega) (Int.ofNat_le.mpr hle)]
  rfl

end Text

end TagRetention
