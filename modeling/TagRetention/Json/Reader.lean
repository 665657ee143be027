import TagRetention.Json.Node

/-!
Reading JSON text. Reading goes on as far as it can: a `Node` says what was found, and the rest of
the text is `none` once nothing more can be read. Containers nest at most 127 deep; a deeper one
can only be passed over.
-/

namespace TagRetention.Json

def skipSpace : List Char → List Char :=
  List.dropWhile fun c => c = ' ' || c = '\n' || c = '\t' || c = '\r'

def hex? (c : Char) : Option Nat :=
  if '0' ≤ c ∧ c ≤ '9' then some (c.toNat - 48)
  else if 'a' ≤ c ∧ c ≤ 'f' then some (c.toNat - 87)
  else if 'A' ≤ c ∧ c ≤ 'F' then some (c.toNat - 55)
  else none

def hex4? (a b c d : Char) : Option Nat := do
  return (((← hex? a) * 16 + (← hex? b)) * 16 + (← hex? c)) * 16 + (← hex? d)

def isLeading (n : Nat) : Bool := 0xD800 ≤ n && n < 0xDC00

def isTrailing (n : Nat) : Bool := 0xDC00 ≤ n && n < 0xE000

/-- The character that a surrogate pair stands for. -/
def paired (lead trail : Nat) : Char :=
  Char.ofNat (0x10000 + (lead - 0xD800) * 0x400 + (trail - 0xDC00))

def unescape? : Char → Option Char
  | '"' => some '"'
  | '\\' => some '\\'
  | '/' => some '/'
  | 'b' => some '\x08'
  | 'f' => some '\x0c'
  | 'n' => some '\n'
  | 'r' => some '\r'
  | 't' => some '\t'
  | _ => none

/-- The characters up to the closing quote, backwards in front of `acc`. `lead` is the first half
of a surrogate pair just read. A half by itself makes the text unreadable, not broken. -/
def readText (acc : List Char) (readable : Bool) (lead : Option Nat) :
    List Char → Option (Option String × List Char)
  | [] => none
  | '"' :: r =>
    some (if readable && lead.isNone then some (String.ofList acc.reverse) else none, r)
  | '\\' :: 'u' :: a :: b :: c :: d :: r =>
    match hex4? a b c d with
    | none => none
    | some n =>
      if isLeading n then readText acc (readable && lead.isNone) (some n) r
      else
        match isTrailing n, lead with
        | true, some l =>
          readText (paired l n :: acc) readable none r
        | true, none => readText acc false none r
        | false, l => readText (Char.ofNat n :: acc) (readable && l.isNone) none r
  | '\\' :: c :: r =>
    match unescape? c with
    | none => none
    | some d => readText (d :: acc) (readable && lead.isNone) none r
  | c :: r => if c < ' ' then none else readText (c :: acc) (readable && lead.isNone) none r

/-- Appends decimal digits to `n` while it stays below `2 ^ 64`; the rest is left over. -/
def absorb (n : Nat) : List Char → Nat × List Char
  | [] => (n, [])
  | c :: r =>
    let m := n * 10 + (c.toNat - 48)
    if m < Nat.pow 2 64 then absorb m r else (n, c :: r)

def wholeNumber? (negative : Bool) (digits : List Char) : Option Int :=
  match absorb 0 digits with
  | (n, []) =>
    if !negative then some n
    else if n ≠ 0 ∧ n ≤ Nat.pow 2 63 then some (-(n : Int))
    else none
  | _ => none

/-- Digits that do not fit the significand only count as powers of ten. -/
def scaledNumber? (negative : Bool) (whole decimals : List Char) (exponent : Int) :
    Option Binary64 :=
  let (n, left) := absorb 0 whole
  let (m, dropped) := absorb n decimals
  Binary64.ofDecimal negative m
    (exponent + left.length - ((decimals.length : Int) - dropped.length))

def readExponent : List Char → Option (Option Int × List Char)
  | [] => some (none, [])
  | c :: r =>
    if c = 'e' ∨ c = 'E' then
      let (negative, r) :=
        match r with
        | '-' :: s => (true, s)
        | '+' :: s => (false, s)
        | s => (false, s)
      let digits := r.takeWhile Char.isDigit
      if digits.isEmpty then none
      else
        let n : Nat := digits.foldl (fun n d => n * 10 + (d.toNat - 48)) 0
        some (some (if negative then -(n : Int) else n), r.drop digits.length)
    else some (none, c :: r)

def readDecimals : List Char → Option (List Char × List Char)
  | '.' :: r =>
    let digits := r.takeWhile Char.isDigit
    if digits.isEmpty then none else some (digits, r.drop digits.length)
  | s => some ([], s)

def readNumber (negative : Bool) (s : List Char) : Option (Option Number × List Char) := do
  let whole := s.takeWhile Char.isDigit
  if whole.isEmpty || (whole.head? == some '0' && 1 < whole.length) then none
  else
    let (decimals, r) ← readDecimals (s.drop whole.length)
    let (exponent, r) ← readExponent r
    let number :=
      if decimals.isEmpty && exponent.isNone then
        match wholeNumber? negative whole with
        | some n => some (Number.int n)
        | none => (scaledNumber? negative whole [] 0).map .float
      else (scaledNumber? negative whole decimals (exponent.getD 0)).map .float
    return (number, r)

def stop : Node × Option (List Char) := (.broken, none)

def literal (word : List Char) (node : Node) (s : List Char) : Node × Option (List Char) :=
  if word.isPrefixOf s then (node, some (s.drop word.length)) else stop

/-- A container in place: too deep a one keeps only whether it is whole. -/
def contain (room : Nat) (node : Node) (rest : Option (List Char)) :
    Node × Option (List Char) :=
  if room = 0 then (if rest.isSome then .unreadable else .broken, rest) else (node, rest)

/-- A node that is no container. -/
def readScalar : List Char → Node × Option (List Char)
  | [] => stop
  | 'n' :: r => literal ['u', 'l', 'l'] .null r
  | 't' :: r => literal ['r', 'u', 'e'] (.bool true) r
  | 'f' :: r => literal ['a', 'l', 's', 'e'] (.bool false) r
  | '"' :: r =>
    match readText [] true none r with
    | none => stop
    | some (some t, r) => (.str t, some r)
    | some (none, r) => (.unreadable, some r)
  | c :: r =>
    let number :=
      if c = '-' then readNumber true r else if c.isDigit then readNumber false (c :: r) else none
    match number with
    | none => stop
    | some (some n, r) => (.num n, some r)
    | some (none, r) => (.unreadable, some r)

mutual

def readNode : Nat → Nat → List Char → Node × Option (List Char)
  | 0, _, _ => stop
  | fuel + 1, room, s =>
    match skipSpace s with
    | '[' :: r =>
      let (items, rest) := readItems fuel (room - 1) true [] r
      contain room (.arr items rest.isSome) rest
    | '\x7b' :: r =>
      let (fields, rest) := readFields fuel (room - 1) true [] r
      contain room (.obj fields rest.isSome) rest
    | s => readScalar s

def readItems : Nat → Nat → Bool → List Node → List Char → List Node × Option (List Char)
  | 0, _, _, acc, _ => (acc.reverse, none)
  | fuel + 1, room, first, acc, s =>
    let next (r : List Char) :=
      match readNode fuel room r with
      | (n, none) => ((n :: acc).reverse, none)
      | (n, some r) => readItems fuel room false (n :: acc) r
    match first, skipSpace s with
    | _, ']' :: r => (acc.reverse, some r)
    | true, r => next r
    | false, ',' :: r =>
      match skipSpace r with
      | ']' :: _ => (acc.reverse, none)
      | r => next r
    | false, _ => (acc.reverse, none)

def readFields : Nat → Nat → Bool → List (Option String × Node) → List Char →
    List (Option String × Node) × Option (List Char)
  | 0, _, _, acc, _ => (acc.reverse, none)
  | fuel + 1, room, first, acc, s =>
    let next (r : List Char) :=
      match r with
      | '"' :: r =>
        match readText [] true none r with
        | none => (acc.reverse, none)
        | some (k, r) =>
          match skipSpace r with
          | ':' :: r =>
            match readNode fuel room r with
            | (n, none) => (((k, n) :: acc).reverse, none)
            | (n, some r) => readFields fuel room false ((k, n) :: acc) r
          | _ => (((k, .broken) :: acc).reverse, none)
      | _ => (acc.reverse, none)
    match first, skipSpace s with
    | _, '\x7d' :: r => (acc.reverse, some r)
    | true, r => next r
    | false, ',' :: r => next (skipSpace r)
    | false, _ => (acc.reverse, none)

end

def maxDepth : Nat := 127

/-- The value at the start of the text; what follows it is not looked at. -/
def readStart (s : String) : Node :=
  let cs := s.toList
  (readNode (2 * cs.length + 2) maxDepth cs).1

/-- The value that is the whole text, blanks around it apart. -/
def read (s : String) : Node :=
  let cs := s.toList
  match readNode (2 * cs.length + 2) maxDepth cs with
  | (n, some r) => if (skipSpace r).isEmpty then n else .broken
  | (n, none) => n

end TagRetention.Json
