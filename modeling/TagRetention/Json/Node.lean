import TagRetention.Json.Value

/-!
What reading found at each place of a JSON text, in text order and as far as the text can be read.
`broken` is where nothing can be read; `unreadable` can be passed over but stands for no value. A
container that is not `closed` ends in an error.
-/

namespace TagRetention.Json

/-- Why no value can be had: the text is no JSON, or its JSON is of another shape. -/
inductive Flaw where
  | malformed
  | mismatch
  deriving DecidableEq, Repr

inductive Node where
  | broken
  | unreadable
  | null
  | bool (value : Bool)
  | num (value : Number)
  | str (value : String)
  | arr (items : List Node) (closed : Bool)
  | obj (fields : List (Option String × Node)) (closed : Bool)
  deriving Repr, Inhabited

namespace Node

/-- The flaw of a node that has the wrong shape. -/
def flaw : Node → Flaw
  | .broken => .malformed
  | .unreadable => .malformed
  | _ => .mismatch

mutual

def ofJson : Json → Node
  | .null => .null
  | .bool b => .bool b
  | .num n => .num n
  | .str s => .str s
  | .arr items => .arr (ofItems items) true
  | .obj fields => .obj (ofFields fields) true

def ofItems : List Json → List Node
  | [] => []
  | a :: r => ofJson a :: ofItems r

def ofFields : List (String × Json) → List (Option String × Node)
  | [] => []
  | (k, a) :: r => (some k, ofJson a) :: ofFields r

end

mutual

/-- Passing over: every part of the text has to be there. -/
def isWhole : Node → Bool
  | .broken => false
  | .arr items closed => areWhole items && closed
  | .obj fields closed => fieldsAreWhole fields && closed
  | _ => true

def areWhole : List Node → Bool
  | [] => true
  | n :: r => isWhole n && areWhole r

def fieldsAreWhole : List (Option String × Node) → Bool
  | [] => true
  | (_, n) :: r => isWhole n && fieldsAreWhole r

end

mutual

/-- A free value. Of fields with one key the last counts. -/
def value : Node → Except Flaw Value
  | .broken => .error .malformed
  | .unreadable => .error .malformed
  | .null => .ok .null
  | .bool b => .ok (.bool b)
  | .num n => .ok (.num n)
  | .str s => .ok (.str s)
  | .arr items closed =>
    match values items with
    | .error e => .error e
    | .ok vs => if closed then .ok (.array vs) else .error .malformed
  | .obj fields closed =>
    match members .empty fields with
    | .error e => .error e
    | .ok m => if closed then .ok (.object m) else .error .malformed

def values : List Node → Except Flaw (List Value)
  | [] => .ok []
  | n :: r =>
    match value n with
    | .error e => .error e
    | .ok v => (values r).map (v :: ·)

def members (m : Members) : List (Option String × Node) → Except Flaw Members
  | [] => .ok m
  | (none, _) :: _ => .error .malformed
  | (some k, n) :: r =>
    match value n with
    | .error e => .error e
    | .ok v => members (m.insert k v) r

end

end Node

end TagRetention.Json
