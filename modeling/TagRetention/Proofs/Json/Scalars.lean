import TagRetention.Json.Printer
import TagRetention.Json.Reader
import TagRetention.Proofs.Text.Numeral

/-!
Texts and numbers that are written and read back. Every text comes back, whatever is escaped in it;
a whole number comes back that has 64 bits, with or without a sign.
-/

namespace TagRetention.Json

open Text

theorem readText_plain {c : Char} (hquote : c ≠ '"') (hslash : c ≠ '\\') (hspace : ' ' ≤ c)
    (acc rest : List Char) :
    readText acc true none (c :: rest) = readText (c :: acc) true none rest := by
  have hcontrol : ¬ c < ' ' := by
    simpa [Char.lt_def, Char.le_def] using hspace
  rw [readText]
  · simp [hcontrol]
  · exact hquote
  · exact fun _ _ _ _ _ h => absurd h hslash
  · exact fun _ _ h => absurd h hslash

theorem readText_control {n : Nat} (h : n < 32) (acc rest : List Char) :
    readText acc true none
        ('\\' :: 'u' :: '0' :: '0' :: hexDigit (n / 16) :: hexDigit (n % 16) :: rest) =
      readText (Char.ofNat n :: acc) true none rest := by
  have hn : hex4? '0' '0' (hexDigit (n / 16)) (hexDigit (n % 16)) = some n := by
    have hall : ∀ d : Fin 32,
        hex4? '0' '0' (hexDigit (d / 16)) (hexDigit (d % 16)) = some d.val := by
      decide
    exact hall ⟨n, h⟩
  have hlead : isLeading n = false := by
    simp [isLeading]
    omega
  have htrail : isTrailing n = false := by
    simp [isTrailing]
    omega
  rw [readText]
  simp [hn, hlead, htrail]

theorem readText_escape (c : Char) (acc rest : List Char) :
    readText acc true none (escape c rest) = readText (c :: acc) true none rest := by
  rw [escape]
  split_ifs with hquote hslash hspace h h h h h
  · rw [hquote]
    rfl
  · rw [hslash]
    rfl
  · exact readText_plain hquote hslash hspace acc rest
  iterate 5
    · rw [h]
      rfl
  · have hlt : c.toNat < 32 := by
      simpa [Char.le_def, UInt32.le_iff_toNat_le] using hspace
    rw [readText_control hlt, Char.ofNat_toNat]

theorem readText_foldr (s acc rest : List Char) :
    readText acc true none (s.foldr escape ('"' :: rest)) =
      some (some (String.ofList (acc.reverse ++ s)), rest) := by
  induction s generalizing acc with
  | nil => simp [readText]
  | cons c s ih =>
    rw [List.foldr_cons, readText_escape, ih, List.reverse_cons, List.append_assoc]
    rfl

/-- No number goes on with this text. -/
def EndsNumber (rest : List Char) : Prop :=
  ∀ c ∈ rest.head?, c = ',' ∨ c = ']' ∨ c = '\x7d'

theorem head?_toDigits {n : Nat} (h : n ≠ 0) : (Nat.toDigits 10 n).head? ≠ some '0' := by
  induction n using Nat.strongRecOn with
  | _ n ih =>
    rw [Nat.toDigits_eq_if (by decide)]
    split
    · rename_i hlt
      have hall : ∀ d : Fin 10, d.val ≠ 0 → Nat.digitChar d ≠ '0' := by decide
      simpa using hall ⟨n, hlt⟩ h
    · obtain ⟨c, ds, hds⟩ := List.exists_cons_of_ne_nil
        (Nat.toDigits_ne_nil (n := n / 10) (b := 10))
      have hhead := ih (n / 10) (by omega) (by omega)
      rw [hds] at hhead ⊢
      exact hhead

theorem absorb_of_digits {ds : List Char} {acc : Nat} (h : Nat.ofDigitChars 10 ds acc < 2 ^ 64) :
    absorb acc ds = (Nat.ofDigitChars 10 ds acc, []) := by
  induction ds generalizing acc with
  | nil => rfl
  | cons c ds ih =>
    rw [Nat.ofDigitChars_cons, Nat.mul_comm] at h ⊢
    have hstep : acc * 10 + (c.toNat - 48) < Nat.pow 2 64 :=
      Nat.lt_of_le_of_lt (le_ofDigitChars ds _) h
    rw [absorb, if_pos hstep]
    exact ih h

theorem wholeNumber?_toDigits {n : Nat} (h : n < 2 ^ 64) :
    wholeNumber? false (Nat.toDigits 10 n) = some (n : Int) := by
  have hvalue : Nat.ofDigitChars 10 (Nat.toDigits 10 n) 0 = n := Nat.ofDigitChars_ten_toDigits
  rw [wholeNumber?, absorb_of_digits (hvalue.symm ▸ h), hvalue]
  rfl

theorem wholeNumber?_toDigits_of_negative {n : Nat} (h : n ≠ 0) (hle : n ≤ 2 ^ 63) :
    wholeNumber? true (Nat.toDigits 10 n) = some (-(n : Int)) := by
  have hvalue : Nat.ofDigitChars 10 (Nat.toDigits 10 n) 0 = n := Nat.ofDigitChars_ten_toDigits
  have hlt : n < 2 ^ 64 := by omega
  have hle' : n ≤ Nat.pow 2 63 := hle
  rw [wholeNumber?, absorb_of_digits (hvalue.symm ▸ hlt), hvalue]
  simp [h, hle']

theorem EndsNumber.readExponent {rest : List Char} (h : EndsNumber rest) :
    readExponent rest = some (none, rest) := by
  cases rest with
  | nil => rfl
  | cons c rest =>
    rcases h c rfl with rfl | rfl | rfl <;> rfl

theorem EndsNumber.readDecimals {rest : List Char} (h : EndsNumber rest) :
    readDecimals rest = some ([], rest) := by
  cases rest with
  | nil => rfl
  | cons c rest =>
    rcases h c rfl with rfl | rfl | rfl <;> rfl

theorem EndsNumber.takeWhile {ds rest : List Char} (h : EndsNumber rest)
    (hds : ∀ c ∈ ds, c.isDigit = true) : (ds ++ rest).takeWhile Char.isDigit = ds := by
  rw [List.takeWhile_append_of_pos hds]
  cases rest with
  | nil => simp
  | cons c rest =>
    rcases h c rfl with rfl | rfl | rfl <;> simp

theorem readNumber_digits {negative : Bool} {n : Nat} {i : Int} {rest : List Char}
    (hrest : EndsNumber rest) (h : wholeNumber? negative (Nat.toDigits 10 n) = some i) :
    readNumber negative (Nat.toDigits 10 n ++ rest) = some (some (.int i), rest) := by
  have hzero : (Nat.toDigits 10 n).head? = some '0' → (Nat.toDigits 10 n).length ≤ 1 := by
    intro hhead
    by_cases hn : n = 0
    · subst hn
      exact Nat.le_refl 1
    · exact absurd hhead (head?_toDigits hn)
  have hwhole : ((Nat.toDigits 10 n).isEmpty ||
      ((Nat.toDigits 10 n).head? == some '0' && 1 < (Nat.toDigits 10 n).length)) = false := by
    simpa using hzero
  simp only [readNumber, hrest.takeWhile fun _ => isDigit_of_mem_digits, List.drop_left,
    hrest.readDecimals, hwhole]
  simp [hrest.readExponent, h]

theorem readScalar_digit {c : Char} (hc : c.isDigit = true) (r : List Char) :
    readScalar (c :: r) =
      match readNumber false (c :: r) with
      | none => stop
      | some (some n, r) => (.num n, some r)
      | some (none, r) => (.unreadable, some r) := by
  have hne : ∀ d : Char, d.isDigit = false → c ≠ d := by
    rintro d hd rfl
    rw [hc] at hd
    cases hd
  have hnumber : (if c = '-' then readNumber true r
      else if c.isDigit then readNumber false (c :: r) else none) = readNumber false (c :: r) := by
    rw [if_neg (hne '-' rfl), if_pos hc]
  rw [readScalar]
  · exact congrArg (fun number =>
      match number with
      | none => stop
      | some (some n, r) => (.num n, some r)
      | some (none, r) => (.unreadable, some r)) hnumber
  · exact hne 'n' rfl
  · exact hne 't' rfl
  · exact hne 'f' rfl
  · exact hne '"' rfl

theorem readScalar_numeral {n : Int} {rest : List Char} (hrest : EndsNumber rest)
    (hn : -2 ^ 63 ≤ n ∧ n < 2 ^ 64) :
    readScalar (numeral n ++ rest) = (.num (.int n), some rest) := by
  rw [numeral]
  split
  · rename_i hneg
    have hread := readNumber_digits hrest
      (wholeNumber?_toDigits_of_negative (n := n.natAbs) (by omega) (by omega))
    have hvalue : -(n.natAbs : Int) = n := by omega
    rw [hvalue] at hread
    have hscalar : readScalar ('-' :: (Nat.toDigits 10 n.natAbs ++ rest)) =
      match readNumber true (Nat.toDigits 10 n.natAbs ++ rest) with
      | none => stop
      | some (some n, r) => (.num n, some r)
      | some (none, r) => (.unreadable, some r) := rfl
    rw [List.cons_append, hscalar, hread]
  · have hread := readNumber_digits hrest (wholeNumber?_toDigits (n := n.natAbs) (by omega))
    have hvalue : (n.natAbs : Int) = n := by omega
    obtain ⟨c, ds, hds⟩ := List.exists_cons_of_ne_nil
      (Nat.toDigits_ne_nil (n := n.natAbs) (b := 10))
    have hc : c.isDigit = true := isDigit_of_mem_digits (hds ▸ List.mem_cons_self)
    rw [hds, List.cons_append] at hread ⊢
    rw [readScalar_digit hc, hread, hvalue]

end TagRetention.Json
