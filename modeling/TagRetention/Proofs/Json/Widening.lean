import TagRetention.Json.Record

/-!
Documents with fields that nobody declared. A decoder of records passes over them, wherever in the
document a record stands.
-/

namespace TagRetention.Json

open Decode Node

/-- Where a document has records, and which fields they declare. -/
inductive Shape where
  | leaf
  | items (item : Shape)
  | record (fields : List (String × Shape))

mutual

/-- The second document is the first one with more fields in its records, none of them declared.
A leaf stays as it is. -/
inductive Widens : Shape → Json → Json → Prop where
  | refl {s : Shape} (a : Json) : Widens s a a
  | items {s : Shape} {l l' : List Json} (h : WidensItems s l l') :
    Widens (.items s) (.arr l) (.arr l')
  | record {fs : List (String × Shape)} {l l' : List (String × Json)} (h : WidensFields fs l l') :
    Widens (.record fs) (.obj l) (.obj l')

inductive WidensItems : Shape → List Json → List Json → Prop where
  | nil {s : Shape} : WidensItems s [] []
  | cons {s : Shape} {a a' : Json} {l l' : List Json} (h : Widens s a a')
    (hr : WidensItems s l l') : WidensItems s (a :: l) (a' :: l')

inductive WidensFields : List (String × Shape) → List (String × Json) → List (String × Json) →
    Prop where
  | nil {fs : List (String × Shape)} : WidensFields fs [] []
  | declared {fs : List (String × Shape)} {k : String} {s : Shape} {a a' : Json}
    {l l' : List (String × Json)} (hk : fs.lookup k = some s) (h : Widens s a a')
    (hr : WidensFields fs l l') : WidensFields fs ((k, a) :: l) ((k, a') :: l')
  | other {fs : List (String × Shape)} {k : String} {l l' : List (String × Json)}
    (hk : fs.lookup k = none) (a : Json) (hr : WidensFields fs l l') :
    WidensFields fs ((k, a) :: l) ((k, a) :: l')
  | added {fs : List (String × Shape)} {k : String} {l l' : List (String × Json)}
    (hk : fs.lookup k = none) (a : Json) (hr : WidensFields fs l l') :
    WidensFields fs l ((k, a) :: l')

end

/-- Fields that are not declared make no difference to the decoder. -/
def Tolerates {α : Type} (d : Decoder α) (s : Shape) : Prop :=
  ∀ a a', Widens s a a' → d (ofJson a') = d (ofJson a)

/-- The fields have these names, and each tolerates what its shape leaves open. -/
inductive FieldsTolerate : {ts : List Type} → Fields ts → List (String × Shape) → Prop where
  | nil : FieldsTolerate .nil []
  | cons {α : Type} {ts : List Type} {f : Decode.Field α} {r : Fields ts} {s : Shape}
    {shapes : List (String × Shape)} (hf : Tolerates f.decode s) (hr : FieldsTolerate r shapes) :
    FieldsTolerate (.cons f r) ((f.name, s) :: shapes)

mutual

theorem isWhole_ofJson : (j : Json) → (ofJson j).isWhole = true
  | .null | .bool _ | .num _ | .str _ => rfl
  | .arr items => by rw [ofJson, isWhole, areWhole_ofItems items, Bool.and_self]
  | .obj fields => by rw [ofJson, isWhole, fieldsAreWhole_ofFields fields, Bool.and_self]

theorem areWhole_ofItems : (items : List Json) → areWhole (ofItems items) = true
  | [] => rfl
  | a :: r => by rw [ofItems, areWhole, isWhole_ofJson a, areWhole_ofItems r, Bool.and_self]

theorem fieldsAreWhole_ofFields : (fields : List (String × Json)) →
    fieldsAreWhole (ofFields fields) = true
  | [] => rfl
  | (_, a) :: r => by
    rw [ofFields, fieldsAreWhole, isWhole_ofJson a, fieldsAreWhole_ofFields r, Bool.and_self]

end

variable {α β : Type} {ts : List Type} {fs : Fields ts} {shapes : List (String × Shape)}
  {k : String} {s : Shape} {a a' : Json} {l l' : List (String × Json)}

theorem lookup_cons_eq_if (k k₀ : String) (s : Shape) (shapes : List (String × Shape)) :
    ((k₀, s) :: shapes).lookup k = if k = k₀ then some s else shapes.lookup k := by
  by_cases h : k = k₀
  · simp [h]
  · simp [List.lookup_cons, h, beq_eq_false_iff_ne.mpr h]

theorem FieldsTolerate.fill (h : FieldsTolerate fs shapes) (hk : shapes.lookup k = some s)
    (hw : Widens s a a') (slots : Slots ts) :
    fs.fill k (ofJson a') slots = fs.fill k (ofJson a) slots := by
  induction h with
  | nil => cases hk
  | @cons _ _ f r s₀ shapes hf _ ih =>
    rw [lookup_cons_eq_if] at hk
    by_cases hname : k = f.name
    · rw [if_pos hname] at hk
      cases hk
      simp only [Fields.fill, if_pos hname, hf a a' hw]
    · rw [if_neg hname] at hk
      simp only [Fields.fill, if_neg hname, ih hk]

theorem FieldsTolerate.fill_undeclared (h : FieldsTolerate fs shapes)
    (hk : shapes.lookup k = none) (a : Json) (slots : Slots ts) :
    fs.fill k (ofJson a) slots = .ok slots := by
  induction h with
  | nil => exact if_pos (isWhole_ofJson a)
  | @cons _ _ f r s₀ shapes hf _ ih =>
    rw [lookup_cons_eq_if] at hk
    by_cases hname : k = f.name
    · rw [if_pos hname] at hk
      cases hk
    · rw [if_neg hname] at hk
      simp only [Fields.fill, if_neg hname, ih hk]
      rfl

theorem FieldsTolerate.fillAll (h : FieldsTolerate fs shapes) :
    {l l' : List (String × Json)} → WidensFields shapes l l' → (slots : Slots ts) →
    fs.fillAll slots (ofFields l') = fs.fillAll slots (ofFields l)
  | _, _, .nil, _ => rfl
  | _, _, .declared hk hw hr, slots => by
    rw [ofFields, ofFields, Fields.fillAll, Fields.fillAll, h.fill hk hw]
    split
    · rfl
    · exact h.fillAll hr _
  | _, _, .other hk a hr, slots => by
    rw [ofFields, ofFields, Fields.fillAll, Fields.fillAll, h.fill_undeclared hk]
    exact h.fillAll hr slots
  | _, _, .added hk a hr, slots => by
    rw [ofFields, Fields.fillAll, h.fill_undeclared hk]
    exact h.fillAll hr slots

theorem tolerates_leaf (d : Decoder α) : Tolerates d .leaf := by
  intro a a' h
  cases h
  rfl

theorem FieldsTolerate.record (h : FieldsTolerate fs shapes) (build : Tuple ts → α) :
    Tolerates (Decode.record fs build) (.record shapes) := by
  intro a a' hw
  cases hw with
  | refl => rfl
  | record hw =>
    rw [ofJson, ofJson, Decode.record, Decode.record, Fields.decode, Fields.decode, h.fillAll hw]

theorem Tolerates.each {d : Decoder α} (h : Tolerates d s) :
    {l l' : List Json} → WidensItems s l l' → each d (ofItems l') = each d (ofItems l)
  | _, _, .nil => rfl
  | _, _, .cons hw hr => by
    rw [ofItems, ofItems, Decode.each, Decode.each, h _ _ hw, h.each hr]

theorem Tolerates.list {d : Decoder α} (h : Tolerates d s) : Tolerates (list d) (.items s) := by
  intro a a' hw
  cases hw with
  | refl => rfl
  | items hw => rw [ofJson, ofJson, Decode.list, Decode.list, h.each hw]

theorem WidensItems.isEmpty : {l l' : List Json} → WidensItems s l l' →
    (ofItems l').isEmpty = (ofItems l).isEmpty
  | _, _, .nil => rfl
  | _, _, .cons _ _ => rfl

theorem FieldsTolerate.ofItems (h : FieldsTolerate fs shapes) (hs : ∀ e ∈ shapes, e.2 = s)
    {l l' : List Json} (hw : WidensItems s l l') (closed : Bool) :
    fs.ofItems closed (Node.ofItems l') = fs.ofItems closed (Node.ofItems l) := by
  induction h generalizing l l' with
  | nil => rw [Fields.ofItems, Fields.ofItems, hw.isEmpty]
  | cons hf _ ih =>
    obtain rfl : _ = s := hs _ List.mem_cons_self
    cases hw with
    | nil => rfl
    | cons ha hr =>
      rw [Node.ofItems, Node.ofItems, Fields.ofItems, Fields.ofItems, hf _ _ ha,
        ih (fun e he => hs e (List.mem_cons_of_mem _ he)) hr]

theorem Tolerates.pair {d : Decoder α} {e : Decoder β} (hd : Tolerates d s) (he : Tolerates e s) :
    Tolerates (pair d e) (.items s) := by
  intro a a' hw
  have hfields : FieldsTolerate (.cons (required "" d) (.cons (required "" e) .nil))
      [("", s), ("", s)] :=
    .cons hd (.cons he .nil)
  cases hw with
  | refl => rfl
  | items hw => rw [ofJson, ofJson, Decode.pair, Decode.pair, hfields.ofItems (by simp) hw]

theorem Tolerates.single {d : Decoder α} (h : Tolerates d s) :
    Tolerates (single d) (.items s) := by
  intro a a' hw
  have hfields : FieldsTolerate (.cons (required "" d) .nil) [("", s)] := .cons h .nil
  cases hw with
  | refl => rfl
  | items hw => rw [ofJson, ofJson, Decode.single, Decode.single, hfields.ofItems (by simp) hw]

end TagRetention.Json
