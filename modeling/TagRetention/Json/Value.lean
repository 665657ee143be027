import TagRetention.Number.Decimal
import TagRetention.Table

/-!
JSON documents. A document keeps the fields of an object in writing order. A `Value` is a document
whose objects are tables: distinct keys, in order, at every depth.
-/

namespace TagRetention

inductive Json.Number where
  | int (value : Int)
  | float (value : Binary64)
  deriving DecidableEq, Repr

/-- A whole number differs from the same number written with a point. -/
def Json.Number.same : Json.Number → Json.Number → Bool
  | .int a, .int b => a == b
  | .float a, .float b => a.same b
  | _, _ => false

inductive Json where
  | null
  | bool (value : Bool)
  | num (value : Json.Number)
  | str (value : String)
  | arr (items : List Json)
  | obj (fields : List (String × Json))
  deriving Repr, Inhabited

namespace Json

def int (n : Int) : Json :=
  .num (.int n)

def nat (n : Nat) : Json :=
  .num (.int n)

def ofOption {α : Type} (f : α → Json) : Option α → Json
  | none => .null
  | some a => f a

def ofList {α : Type} (f : α → Json) (l : List α) : Json :=
  .arr (l.map f)

mutual

def same : Json → Json → Bool
  | .null, .null => true
  | .bool a, .bool b => a == b
  | .num a, .num b => a.same b
  | .str a, .str b => a == b
  | .arr a, .arr b => sameItems a b
  | .obj a, .obj b => sameFields a b
  | _, _ => false

def sameItems : List Json → List Json → Bool
  | [], [] => true
  | a :: r, b :: s => same a b && sameItems r s
  | _, _ => false

def sameFields : List (String × Json) → List (String × Json) → Bool
  | [], [] => true
  | (k, a) :: r, (l, b) :: s => k == l && same a b && sameFields r s
  | _, _ => false

end

mutual

def Canonical : Json → Prop
  | .arr items => CanonicalItems items
  | .obj fields => Table.Sorted fields ∧ CanonicalFields fields
  | _ => True

def CanonicalItems : List Json → Prop
  | [] => True
  | a :: r => Canonical a ∧ CanonicalItems r

def CanonicalFields : List (String × Json) → Prop
  | [] => True
  | (_, a) :: r => Canonical a ∧ CanonicalFields r

end

/-- The value of the field, the last one if there are several. -/
def field? (k : String) : Json → Option Json
  | .obj fields => (fields.reverse.find? (·.1 == k)).map (·.2)
  | _ => none

structure Value where
  json : Json
  canonical : json.Canonical

/-- The contents of an object. -/
structure Members where
  entries : Table String Value
  sorted : entries.Sorted

namespace Value

def null : Value := ⟨.null, trivial⟩

def bool (b : Bool) : Value := ⟨.bool b, trivial⟩

def num (n : Number) : Value := ⟨.num n, trivial⟩

def int (n : Int) : Value := num (.int n)

def str (s : String) : Value := ⟨.str s, trivial⟩

theorem canonicalItems_map (vs : List Value) : CanonicalItems (vs.map (·.json)) := by
  induction vs with
  | nil => trivial
  | cons v r ih => exact ⟨v.canonical, ih⟩

theorem canonicalFields_map (t : Table String Value) :
    CanonicalFields (t.mapValues (·.json)) := by
  induction t with
  | nil => trivial
  | cons e r ih => exact ⟨e.2.canonical, ih⟩

def array (vs : List Value) : Value :=
  ⟨.arr (vs.map (·.json)), by rw [Canonical]; exact canonicalItems_map vs⟩

def object (m : Members) : Value :=
  ⟨.obj (m.entries.mapValues (·.json)), by
    rw [Canonical]
    exact ⟨Table.sorted_mapValues _ m.sorted, canonicalFields_map m.entries⟩⟩

def same (v w : Value) : Bool :=
  v.json.same w.json

instance : Inhabited Value := ⟨null⟩

end Value

namespace Members

def empty : Members := ⟨[], Table.sorted_nil⟩

def get? (m : Members) (k : String) : Option Value :=
  m.entries.get? k

def insert (m : Members) (k : String) (v : Value) : Members :=
  ⟨m.entries.insert k v, Table.sorted_insert m.sorted⟩

def map (f : Value → Value) (m : Members) : Members :=
  ⟨m.entries.mapValues f, Table.sorted_mapValues f m.sorted⟩

def same (m n : Members) : Bool :=
  (Value.object m).same (Value.object n)

instance : Inhabited Members := ⟨empty⟩

end Members

end Json

end TagRetention
