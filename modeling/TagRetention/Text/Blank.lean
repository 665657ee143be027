import TagRetention.Text.Separated

/-!
Blank characters: the `White_Space` property. `trim` takes blanks off both ends, `squeeze` takes
out all of them, `words` are the maximal runs without one.
-/

namespace TagRetention.Text

def isBlank (c : Char) : Bool :=
  let n := c.toNat
  (0x09 ≤ n && n ≤ 0x0D) || n == 0x20 || n == 0x85 || n == 0xA0 || n == 0x1680 ||
    (0x2000 ≤ n && n ≤ 0x200A) || n == 0x2028 || n == 0x2029 || n == 0x202F || n == 0x205F ||
    n == 0x3000

def trimStartChars (s : List Char) : List Char :=
  s.dropWhile isBlank

def trimChars (s : List Char) : List Char :=
  (trimStartChars (trimStartChars s).reverse).reverse

def squeezeChars (s : List Char) : List Char :=
  s.filter (!isBlank ·)

def words (s : List Char) : List (List Char) :=
  (splitBy isBlank s).filter (!·.isEmpty)

def trim (s : String) : String :=
  String.ofList (trimChars s.toList)

def squeeze (s : String) : String :=
  String.ofList (squeezeChars s.toList)

variable {c : Char} {s : List Char}

theorem isBlank_of_isWhitespace (h : c.isWhitespace = true) : isBlank c = true := by
  simp only [Char.isWhitespace, Bool.or_eq_true, decide_eq_true_eq] at h
  rcases h with ((rfl | rfl) | rfl) | rfl <;> decide

theorem isBlank_of_isDigit (h : c.isDigit = true) : isBlank c = false := by
  have hrange : 48 ≤ c.toNat ∧ c.toNat ≤ 57 := by
    simpa [Char.isDigit, UInt32.le_iff_toNat_le] using h
  simp [isBlank]
  omega

theorem mem_squeezeChars : c ∈ squeezeChars s ↔ c ∈ s ∧ isBlank c = false := by
  simp [squeezeChars]

theorem squeezeChars_idem : squeezeChars (squeezeChars s) = squeezeChars s := by
  simp [squeezeChars]

end TagRetention.Text
