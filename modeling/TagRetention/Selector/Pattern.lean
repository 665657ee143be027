import TagRetention.Text.Separated

/-!
Patterns that stand for several values: the values with commas between them, in braces when there
is more than one. An editor shows the values without the braces.
-/

namespace TagRetention.Pattern

open Text

def isBrace (c : Char) : Bool :=
  c = '\x7b' || c = '\x7d'

/-- Takes off one pair of braces around the whole text. -/
def unwrapChars (s : List Char) : List Char :=
  match s with
  | '\x7b' :: r => if r.getLast? = some '\x7d' then r.dropLast else s
  | _ => s

def decodeChars (s : List Char) : List (List Char) :=
  splitChars ',' (unwrapChars s)

def encodeChars : List (List Char) → List Char
  | [] => []
  | [v] => v
  | vs => '\x7b' :: (joinChars [','] vs ++ ['\x7d'])

def decode (pattern : String) : List String :=
  (decodeChars pattern.toList).map String.ofList

def encode (values : List String) : String :=
  String.ofList (encodeChars (values.map String.toList))

def toField (pattern : String) : String :=
  join "," (decode pattern)

def ofField (field : String) : String :=
  encode (split ',' field)

def stripBraces (pattern : String) : String :=
  String.ofList (pattern.toList.filter (!isBrace ·))

end TagRetention.Pattern
