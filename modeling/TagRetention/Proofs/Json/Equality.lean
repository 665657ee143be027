import TagRetention.Json.Value

/-!
Equality of documents can be decided, field by field. It is finer than `same`: fields in another
order make another document.
-/

namespace TagRetention.Json

mutual

def equal : Json → Json → Bool
  | .null, .null => true
  | .bool a, .bool b => a == b
  | .num a, .num b => a == b
  | .str a, .str b => a == b
  | .arr l, .arr m => equalItems l m
  | .obj l, .obj m => equalFields l m
  | _, _ => false

def equalItems : List Json → List Json → Bool
  | [], [] => true
  | a :: l, b :: m => equal a b && equalItems l m
  | _, _ => false

def equalFields : List (String × Json) → List (String × Json) → Bool
  | [], [] => true
  | (k, a) :: l, (k', b) :: m => k == k' && equal a b && equalFields l m
  | _, _ => false

end

mutual

theorem equal_iff : (a b : Json) → (equal a b = true ↔ a = b)
  | .null, b => by cases b <;> simp [equal]
  | .bool a, b => by cases b <;> simp [equal]
  | .num a, b => by cases b <;> simp [equal]
  | .str a, b => by cases b <;> simp [equal]
  | .arr l, b => by cases b <;> simp [equal, equalItems_iff l]
  | .obj l, b => by cases b <;> simp [equal, equalFields_iff l]

theorem equalItems_iff : (l m : List Json) → (equalItems l m = true ↔ l = m)
  | [], m => by cases m <;> simp [equalItems]
  | a :: l, m => by cases m <;> simp [equalItems, equal_iff a, equalItems_iff l]

theorem equalFields_iff : (l m : List (String × Json)) → (equalFields l m = true ↔ l = m)
  | [], m => by cases m <;> simp [equalFields]
  | (k, a) :: l, m => by
    cases m <;> simp [equalFields, Prod.ext_iff, equal_iff a, equalFields_iff l, and_assoc]

end

instance : DecidableEq Json := fun a b => decidable_of_iff _ (equal_iff a b)

end TagRetention.Json
