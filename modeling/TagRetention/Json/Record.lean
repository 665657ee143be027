import TagRetention.Json.Node
import TagRetention.Text.Numeral

/-!
Decoders for what reading found. The first flaw in text order is the one reported. A record is an
object, whose unknown fields are passed over, or an array of its fields in declaration order.
-/

namespace TagRetention.Json

abbrev Decoder (α : Type) := Node → Except Flaw α

namespace Decode

variable {α β : Type}

def bool : Decoder Bool
  | .bool b => .ok b
  | n => .error n.flaw

def text : Decoder String
  | .str s => .ok s
  | n => .error n.flaw

def integer (lo hi : Int) : Decoder Int
  | .num (.int i) => if lo ≤ i ∧ i ≤ hi then .ok i else .error .mismatch
  | n => .error n.flaw

def int64 : Decoder Int :=
  integer (-Int.pow 2 63) (Int.pow 2 63 - 1)

def int32 : Decoder Int :=
  integer (-Int.pow 2 31) (Int.pow 2 31 - 1)

def natural (bits : Nat) : Decoder Nat :=
  fun n => (integer 0 (Int.pow 2 bits - 1) n).map Int.toNat

def nullable (d : Decoder α) : Decoder (Option α)
  | .null => .ok none
  | n => (d n).map some

def each (d : Decoder α) : List Node → Except Flaw (List α)
  | [] => .ok []
  | n :: r =>
    match d n with
    | .error e => .error e
    | .ok a => (each d r).map (a :: ·)

def list (d : Decoder α) : Decoder (List α)
  | .arr items closed =>
    match each d items with
    | .error e => .error e
    | .ok as => if closed then .ok as else .error .malformed
  | n => .error n.flaw

def members : Decoder Members
  | .obj fields closed =>
    match Node.members .empty fields with
    | .error e => .error e
    | .ok m => if closed then .ok m else .error .malformed
  | n => .error n.flaw

/-- One of the named values: its name, or an object with null under its name. -/
def choice (names : List (String × α)) : Decoder α
  | .str s =>
    match names.lookup s with
    | some a => .ok a
    | none => .error .mismatch
  | .obj ((some k, n) :: r) closed =>
    match names.lookup k, n with
    | none, _ => .error .mismatch
    | some a, .null => if r.isEmpty && closed then .ok a else .error .malformed
    | some _, n => .error n.flaw
  | _ => .error .malformed

/-- `absent` stands for a field that an object lacks, `short` for one that an array ends before. -/
structure Field (α : Type) where
  name : String
  decode : Decoder α
  absent : Option α
  short : Option α

def required (name : String) (d : Decoder α) : Field α :=
  ⟨name, d, none, none⟩

def defaulted (name : String) (d : Decoder α) (a : α) : Field α :=
  ⟨name, d, some a, some a⟩

def optional (name : String) (d : Decoder α) : Field (Option α) :=
  ⟨name, nullable d, some none, none⟩

inductive Fields : List Type → Type 1 where
  | nil : Fields []
  | cons {α : Type} {ts : List Type} (f : Field α) (r : Fields ts) : Fields (α :: ts)

@[reducible]
def Tuple : List Type → Type
  | [] => Unit
  | α :: ts => α × Tuple ts

@[reducible]
def Slots : List Type → Type
  | [] => Unit
  | α :: ts => Option α × Slots ts

def noSlots : (ts : List Type) → Slots ts
  | [] => ()
  | _ :: ts => (none, noSlots ts)

namespace Fields

def names : {ts : List Type} → Fields ts → List String
  | _, .nil => []
  | _, .cons f r => f.name :: r.names

/-- Puts a field into its slot. A field that comes twice is refused before it is looked at. -/
def fill (k : String) (n : Node) :
    {ts : List Type} → Fields ts → Slots ts → Except Flaw (Slots ts)
  | _, .nil, s => if n.isWhole then .ok s else .error .malformed
  | _, .cons f r, (a, s) =>
    if k = f.name then
      match a with
      | some _ => .error .mismatch
      | none => (f.decode n).map fun b => (some b, s)
    else (r.fill k n s).map fun s => (a, s)

def fillAll {ts : List Type} (fs : Fields ts) (s : Slots ts) :
    List (Option String × Node) → Except Flaw (Slots ts)
  | [] => .ok s
  | (none, _) :: _ => .error .malformed
  | (some k, n) :: r =>
    match fs.fill k n s with
    | .error e => .error e
    | .ok s => fs.fillAll s r

def complete : {ts : List Type} → Fields ts → Slots ts → Except Flaw (Tuple ts)
  | _, .nil, _ => .ok ()
  | _, .cons f r, (a, s) =>
    match a <|> f.absent with
    | none => .error .mismatch
    | some a => (r.complete s).map fun t => (a, t)

def ofItems (closed : Bool) :
    {ts : List Type} → Fields ts → List Node → Except Flaw (Tuple ts)
  | _, .nil, items => if items.isEmpty && closed then .ok () else .error .malformed
  | _, .cons f r, n :: items =>
    match f.decode n with
    | .error e => .error e
    | .ok a => (ofItems closed r items).map fun t => (a, t)
  | _, .cons f r, [] =>
    if !closed then .error .malformed
    else
      match f.short with
      | none => .error .mismatch
      | some a => (ofItems closed r []).map fun t => (a, t)

def decode {ts : List Type} (fs : Fields ts) : Decoder (Tuple ts)
  | .obj fields closed =>
    match fs.fillAll (noSlots ts) fields with
    | .error e => .error e
    | .ok s => if closed then fs.complete s else .error .malformed
  | .arr items closed => fs.ofItems closed items
  | n => .error n.flaw

end Fields

def record {ts : List Type} (fs : Fields ts) (build : Tuple ts → α) : Decoder α :=
  fun n => (fs.decode n).map build

/-- An array of exactly two items. -/
def pair (d : Decoder α) (e : Decoder β) : Decoder (α × β)
  | .arr items closed =>
    ((Fields.cons (required "" d) (.cons (required "" e) .nil)).ofItems closed items).map
      fun (a, b, _) => (a, b)
  | n => .error n.flaw

/-- An array of exactly one item. -/
def single (d : Decoder α) : Decoder α
  | .arr items closed =>
    ((Fields.cons (required "" d) .nil).ofItems closed items).map fun (a, _) => a
  | n => .error n.flaw

end Decode

end TagRetention.Json
