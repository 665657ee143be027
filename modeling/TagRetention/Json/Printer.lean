import TagRetention.Json.Value

/-!
Compact JSON text. Quotes, backslashes and control characters are escaped, all else is written as
it is. Each function puts its text in front of `rest`.
-/

namespace TagRetention.Json

def hexDigit (n : Nat) : Char :=
  if n < 10 then Char.ofNat (48 + n) else Char.ofNat (87 + n)

def escape (c : Char) (rest : List Char) : List Char :=
  if c = '"' then '\\' :: '"' :: rest
  else if c = '\\' then '\\' :: '\\' :: rest
  else if ' ' ≤ c then c :: rest
  else if c = '\n' then '\\' :: 'n' :: rest
  else if c = '\r' then '\\' :: 'r' :: rest
  else if c = '\t' then '\\' :: 't' :: rest
  else if c = '\x08' then '\\' :: 'b' :: rest
  else if c = '\x0c' then '\\' :: 'f' :: rest
  else
    '\\' :: 'u' :: '0' :: '0' :: hexDigit (c.toNat / 16) :: hexDigit (c.toNat % 16) :: rest

def writeText (s : String) (rest : List Char) : List Char :=
  '"' :: s.toList.foldr escape ('"' :: rest)

def Number.text : Number → String
  | .int n => toString n
  | .float x => x.text

mutual

def write : Json → List Char → List Char
  | .null, rest => "null".toList ++ rest
  | .bool true, rest => "true".toList ++ rest
  | .bool false, rest => "false".toList ++ rest
  | .num n, rest => n.text.toList ++ rest
  | .str s, rest => writeText s rest
  | .arr items, rest => '[' :: writeItems true items (']' :: rest)
  | .obj fields, rest => '\x7b' :: writeFields true fields ('\x7d' :: rest)

def writeItems (first : Bool) : List Json → List Char → List Char
  | [], rest => rest
  | a :: r, rest =>
    let text := write a (writeItems false r rest)
    if first then text else ',' :: text

def writeFields (first : Bool) : List (String × Json) → List Char → List Char
  | [], rest => rest
  | (k, a) :: r, rest =>
    let text := writeText k (':' :: write a (writeFields false r rest))
    if first then text else ',' :: text

end

def text (j : Json) : String :=
  String.ofList (write j [])

end TagRetention.Json
