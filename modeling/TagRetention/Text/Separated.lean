/-!
Text cut at separators. A text with `n` separators has `n + 1` pieces, empty ones included, and
joining the pieces with the separator gives the text back.
-/

namespace TagRetention.Text

def splitBy (p : Char → Bool) : List Char → List (List Char)
  | [] => [[]]
  | c :: r =>
    if p c then [] :: splitBy p r
    else
      match splitBy p r with
      | [] => [[c]]
      | w :: ws => (c :: w) :: ws

def splitChars (sep : Char) (s : List Char) : List (List Char) :=
  splitBy (· == sep) s

def joinChars (sep : List Char) : List (List Char) → List Char
  | [] => []
  | [w] => w
  | w :: ws => w ++ sep ++ joinChars sep ws

def split (sep : Char) (s : String) : List String :=
  (splitChars sep s.toList).map String.ofList

def join (sep : String) (ws : List String) : String :=
  String.ofList (joinChars sep.toList (ws.map String.toList))

variable {p : Char → Bool} {s : List Char}

theorem splitBy_ne_nil : splitBy p s ≠ [] := by
  cases s with
  | nil => simp [splitBy]
  | cons c r =>
    simp only [splitBy]
    split
    · simp
    · split <;> simp

theorem not_of_mem_splitBy {w : List Char} {c : Char} (hw : w ∈ splitBy p s) (hc : c ∈ w) :
    p c = false := by
  induction s generalizing w with
  | nil => simp_all [splitBy]
  | cons d r ih =>
    by_cases hd : p d = true
    · simp only [splitBy, hd, if_true, List.mem_cons] at hw
      rcases hw with rfl | hw
      · simp at hc
      · exact ih hw hc
    · simp only [splitBy, hd] at hw
      cases hr : splitBy p r with
      | nil => exact absurd hr splitBy_ne_nil
      | cons v vs =>
        rw [hr] at hw ih
        simp only [Bool.false_eq_true, if_false, List.mem_cons] at hw
        rcases hw with rfl | hw
        · rcases List.mem_cons.1 hc with rfl | hc
          · simpa using hd
          · exact ih (by simp) hc
        · exact ih (by simp [hw]) hc

theorem joinChars_splitChars (sep : Char) : joinChars [sep] (splitChars sep s) = s := by
  unfold splitChars
  induction s with
  | nil => rfl
  | cons c r ih =>
    cases hr : splitBy (· == sep) r with
    | nil => exact absurd hr splitBy_ne_nil
    | cons w ws =>
      rw [hr] at ih
      by_cases h : c = sep
      · simp [splitBy, h, hr, joinChars, ih]
      · cases ws <;> simp_all [splitBy, joinChars]

end TagRetention.Text
