/-!
Media types. A type is two names and parameters after semicolons; a value may stand in quotes, if
it is not empty. The names may be in any case, and a part after a plus sign is a suffix.
-/

namespace TagRetention.Api.MediaType

def isTokenChar (c : Char) : Bool :=
  c.isAlphanum || "!#$%&'*+-.^_`|~".toList.contains c

def isQuotable (c : Char) : Bool :=
  ' ' ≤ c && c ≤ '~'

/-- Goes on after the closing quote. -/
def skipQuoted : List Char → Option (List Char)
  | [] => none
  | c :: r => if c = '"' then some r else if isQuotable c then skipQuoted r else none

/-- Goes on after a quoted value: blanks up to a semicolon or the end. -/
def skipToNext : List Char → Option (List Char)
  | [] => some []
  | ';' :: r => some r
  | ' ' :: r => skipToNext r
  | _ => none

def areParams : Nat → List Char → Bool
  | 0, _ => false
  | _ + 1, [] => true
  | fuel + 1, ' ' :: r => areParams fuel r
  | fuel + 1, s =>
    let name := s.takeWhile isTokenChar
    match s.drop name.length with
    | '=' :: '"' :: c :: r =>
      match (skipQuoted r).bind skipToNext with
      | some r => !name.isEmpty && isQuotable c && areParams fuel r
      | none => false
    | '=' :: r =>
      let value := r.takeWhile isTokenChar
      match r.drop value.length with
      | [] => !name.isEmpty
      | ';' :: r => !name.isEmpty && !value.isEmpty && areParams fuel r
      | _ => false
    | _ => false

/-- The type, the subtype and what follows it. -/
def split? (s : List Char) : Option (List Char × List Char × List Char) :=
  let main := s.takeWhile isTokenChar
  match s.drop main.length with
  | '/' :: r =>
    let sub := r.takeWhile isTokenChar
    if main.isEmpty || sub.isEmpty then none else some (main, sub, r.drop sub.length)
  | _ => none

/-- A subtype before and after its last plus sign, which is not its first character. -/
def cutSuffix (sub : List Char) : List Char × Option (List Char) :=
  let suffix := (sub.reverse.takeWhile (· != '+')).reverse
  let rest := sub.take (sub.length - suffix.length - 1)
  if rest.isEmpty then (sub, none) else (rest, some suffix)

/-- Whether a body of the type is JSON: `application/json` or with the suffix `json`. -/
def isJson (text : String) : Bool :=
  let s := text.toList.map Char.toLower
  match split? s with
  | none => false
  | some (main, sub, rest) =>
    let (sub, suffix) := cutSuffix sub
    let params :=
      match rest with
      | [] => true
      | ';' :: r => areParams (r.length + 1) r
      | _ => false
    params && main == "application".toList &&
      (sub == "json".toList || suffix == some "json".toList)

end TagRetention.Api.MediaType
