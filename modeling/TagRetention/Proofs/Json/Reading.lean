import TagRetention.Proofs.Json.Scalars

/-!
Documents that are written and read back. If all numbers of a document are whole, reading finds what
was written, down to the depth that the reader allows; what nests deeper is only passed over.
-/

namespace TagRetention.Json

open Text

/-- The number is whole and of 64 bits, with or without a sign. -/
def Number.IsExact : Number → Prop
  | .int n => -2 ^ 63 ≤ n ∧ n < 2 ^ 64
  | .float _ => False

mutual

/-- Every number of the document is exact. -/
def IsExact : Json → Prop
  | .num n => n.IsExact
  | .arr items => ItemsExact items
  | .obj fields => FieldsExact fields
  | .null | .bool _ | .str _ => True

def ItemsExact : List Json → Prop
  | [] => True
  | a :: r => IsExact a ∧ ItemsExact r

def FieldsExact : List (String × Json) → Prop
  | [] => True
  | (_, a) :: r => IsExact a ∧ FieldsExact r

end

mutual

/-- How deep containers nest in the document. -/
def depth : Json → Nat
  | .arr items => itemsDepth items + 1
  | .obj fields => fieldsDepth fields + 1
  | .null | .bool _ | .num _ | .str _ => 0

def itemsDepth : List Json → Nat
  | [] => 0
  | a :: r => max (depth a) (itemsDepth r)

def fieldsDepth : List (String × Json) → Nat
  | [] => 0
  | (_, a) :: r => max (depth a) (fieldsDepth r)

end

namespace Node

mutual

/-- What reading finds of a document where containers may nest `room` deep. -/
def found (room : Nat) : Json → Node
  | .null => .null
  | .bool b => .bool b
  | .num n => .num n
  | .str s => .str s
  | .arr items => if room = 0 then .unreadable else .arr (foundItems (room - 1) items) true
  | .obj fields => if room = 0 then .unreadable else .obj (foundFields (room - 1) fields) true

def foundItems (room : Nat) : List Json → List Node
  | [] => []
  | a :: r => found room a :: foundItems room r

def foundFields (room : Nat) : List (String × Json) → List (Option String × Node)
  | [] => []
  | (k, a) :: r => (some k, found room a) :: foundFields room r

end

mutual

theorem found_of_depth : (j : Json) → (room : Nat) → j.depth ≤ room → found room j = ofJson j
  | .null, _, _ => rfl
  | .bool _, _, _ => rfl
  | .num _, _, _ => rfl
  | .str _, _, _ => rfl
  | .arr items, room, h => by
    rw [depth] at h
    rw [found, if_neg (by omega), ofJson, foundItems_of_depth items (room - 1) (by omega)]
  | .obj fields, room, h => by
    rw [depth] at h
    rw [found, if_neg (by omega), ofJson, foundFields_of_depth fields (room - 1) (by omega)]

theorem foundItems_of_depth : (items : List Json) → (room : Nat) → itemsDepth items ≤ room →
    foundItems room items = ofItems items
  | [], _, _ => rfl
  | a :: r, room, h => by
    rw [itemsDepth, Nat.max_le] at h
    rw [foundItems, ofItems, found_of_depth a room h.1, foundItems_of_depth r room h.2]

theorem foundFields_of_depth : (fields : List (String × Json)) → (room : Nat) →
    fieldsDepth fields ≤ room → foundFields room fields = ofFields fields
  | [], _, _ => rfl
  | (k, a) :: r, room, h => by
    rw [fieldsDepth, Nat.max_le] at h
    rw [foundFields, ofFields, found_of_depth a room h.1, foundFields_of_depth r room h.2]

end

end Node

theorem escape_append (c : Char) (s t : List Char) : escape c (s ++ t) = escape c s ++ t := by
  simp only [escape]
  repeat' split
  all_goals rfl

theorem writeText_append (s : String) (t u : List Char) :
    writeText s (t ++ u) = writeText s t ++ u := by
  have hfold : ∀ cs : List Char,
      cs.foldr escape ('"' :: (t ++ u)) = cs.foldr escape ('"' :: t) ++ u := by
    intro cs
    induction cs with
    | nil => rfl
    | cons c cs ih => rw [List.foldr_cons, List.foldr_cons, ih, escape_append]
  rw [writeText, writeText, hfold, List.cons_append]

mutual

theorem write_append : (j : Json) → (t u : List Char) → write j (t ++ u) = write j t ++ u
  | .null, t, u | .bool true, t, u | .bool false, t, u | .num n, t, u => by
    rw [write, write, List.append_assoc]
  | .str s, t, u => by
    rw [write, write, writeText_append]
  | .arr items, t, u => by
    rw [write, write, ← List.cons_append, writeItems_append, List.cons_append]
  | .obj fields, t, u => by
    rw [write, write, ← List.cons_append, writeFields_append, List.cons_append]

theorem writeItems_append (first : Bool) : (items : List Json) → (t u : List Char) →
    writeItems first items (t ++ u) = writeItems first items t ++ u
  | [], _, _ => rfl
  | a :: r, t, u => by
    rw [writeItems, writeItems, writeItems_append false r, write_append a]
    cases first <;> rfl

theorem writeFields_append (first : Bool) : (fields : List (String × Json)) →
    (t u : List Char) → writeFields first fields (t ++ u) = writeFields first fields t ++ u
  | [], _, _ => rfl
  | (k, a) :: r, t, u => by
    rw [writeFields, writeFields, writeFields_append false r, write_append a, ← List.cons_append,
      writeText_append]
    cases first <;> rfl

end

/-- The first character of a document is no blank and does not end a list. -/
theorem write_eq_cons {j : Json} (h : j.IsExact) (rest : List Char) :
    ∃ c s, write j rest = c :: s ∧ c ∉ [' ', '\n', '\t', '\r', ']'] := by
  cases j with
  | null => exact ⟨_, _, rfl, by decide⟩
  | bool b => cases b <;> exact ⟨_, _, rfl, by decide⟩
  | num n =>
    cases n with
    | float x => cases h
    | int n =>
      obtain ⟨c, ds, hds⟩ := List.exists_cons_of_ne_nil (numeral_ne_nil n)
      have htext : write (.num (.int n)) rest = numeral n ++ rest :=
        congrArg (· ++ rest) (toList_toString_int n)
      refine ⟨c, ds ++ rest, by rw [htext, hds]; rfl, ?_⟩
      rcases of_mem_numeral (hds ▸ List.mem_cons_self : c ∈ numeral n) with rfl | hc
      · decide
      · intro hmem
        simp at hmem
        rcases hmem with rfl | rfl | rfl | rfl | rfl <;> cases hc
  | str s => exact ⟨_, _, rfl, by decide⟩
  | arr items => exact ⟨_, _, rfl, by decide⟩
  | obj fields => exact ⟨_, _, rfl, by decide⟩

theorem lt_length_write {j : Json} (h : j.IsExact) (rest : List Char) :
    rest.length < (write j rest).length := by
  obtain ⟨c, s, hs, -⟩ := write_eq_cons h []
  have happend : write j rest = write j [] ++ rest := write_append j [] rest
  rw [happend, hs, List.length_append, List.length_cons]
  omega

theorem length_le_writeText (s : String) (rest : List Char) :
    rest.length ≤ (writeText s rest).length := by
  have happend : writeText s rest = writeText s [] ++ rest := writeText_append s [] rest
  rw [happend, List.length_append]
  exact Nat.le_add_left _ _

theorem skipSpace_cons {c : Char} {s : List Char} (h : c ∉ [' ', '\n', '\t', '\r']) :
    skipSpace (c :: s) = c :: s := by
  simp at h
  rw [skipSpace, List.dropWhile_cons_of_neg]
  simp [h]

theorem endsNumber_writeItems (items : List Json) (rest : List Char) :
    EndsNumber (writeItems false items (']' :: rest)) := by
  cases items <;> simp [EndsNumber, writeItems]

theorem endsNumber_writeFields (fields : List (String × Json)) (rest : List Char) :
    EndsNumber (writeFields false fields ('\x7d' :: rest)) := by
  cases fields <;> simp [EndsNumber, writeFields]

theorem skipSpace_write {j : Json} (h : j.IsExact) (rest : List Char) :
    skipSpace (write j rest) = write j rest := by
  obtain ⟨c, s, hs, hc⟩ := write_eq_cons h rest
  rw [hs]
  exact skipSpace_cons fun hmem => hc (List.mem_append_left [']'] hmem)

theorem readNode_scalar {fuel room : Nat} {s : List Char} {n : Node} {rest : List Char}
    (hspace : skipSpace s = s) (harr : s.head? ≠ some '[') (hobj : s.head? ≠ some '\x7b')
    (h : readScalar s = (n, some rest)) : readNode (fuel + 1) room s = (n, some rest) := by
  rw [readNode, hspace]
  split
  · exact absurd rfl harr
  · exact absurd rfl hobj
  · exact h

theorem readItems_step {fuel room : Nat} {acc : List Node} {c : Char} {s rest : List Char}
    {n : Node} (hc : c ∉ [' ', '\n', '\t', '\r', ']'])
    (h : readNode fuel room (c :: s) = (n, some rest)) (first : Bool) :
    readItems (fuel + 1) room first acc (if first then c :: s else ',' :: c :: s) =
      readItems fuel room false (n :: acc) rest := by
  have hspace : skipSpace (c :: s) = c :: s :=
    skipSpace_cons fun hmem => hc (List.mem_append_left [']'] hmem)
  have hend : c ≠ ']' := by
    rintro rfl
    exact hc (by decide)
  cases first with
  | true =>
    simp [readItems, hspace, hend, h]
  | false =>
    have hcomma : skipSpace (',' :: c :: s) = ',' :: c :: s := rfl
    simp [readItems, hcomma, hspace, hend, h]

theorem readFields_step {fuel room : Nat} {acc : List (Option String × Node)} {s rest : List Char}
    {n : Node} (k : String) (h : readNode fuel room s = (n, some rest)) (first : Bool) :
    readFields (fuel + 1) room first acc
        (if first then writeText k (':' :: s) else ',' :: writeText k (':' :: s)) =
      readFields fuel room false ((some k, n) :: acc) rest := by
  have hkey := readText_foldr k.toList [] (':' :: s)
  rw [List.reverse_nil, List.nil_append, String.ofList_toList] at hkey
  have hquote (t : List Char) : skipSpace ('"' :: t) = '"' :: t := rfl
  have hcomma (t : List Char) : skipSpace (',' :: t) = ',' :: t := rfl
  have hcolon : skipSpace (':' :: s) = ':' :: s := rfl
  cases first with
  | true => simp [readFields, writeText, hquote, hkey, hcolon, h]
  | false => simp [readFields, writeText, hcomma, hquote, hkey, hcolon, h]

mutual

/-- What is written reads back, and reading ends where the text of the document ends. -/
theorem readNode_write : (j : Json) → (fuel room : Nat) → (rest : List Char) → j.IsExact →
    EndsNumber rest → 2 * (write j rest).length + 1 ≤ fuel →
    readNode fuel room (write j rest) = (Node.found room j, some rest)
  | .null, fuel + 1, room, rest, _, _, _ => rfl
  | .bool true, fuel + 1, room, rest, _, _, _ => rfl
  | .bool false, fuel + 1, room, rest, _, _, _ => rfl
  | .num (.int n), fuel + 1, room, rest, hj, hrest, _ => by
    have hspace := skipSpace_write hj rest
    have htext : write (.num (.int n)) rest = numeral n ++ rest :=
      congrArg (· ++ rest) (toList_toString_int n)
    obtain ⟨c, ds, hds⟩ := List.exists_cons_of_ne_nil (numeral_ne_nil n)
    have hc := of_mem_numeral (hds ▸ List.mem_cons_self : c ∈ numeral n)
    rw [htext] at hspace ⊢
    apply readNode_scalar hspace _ _ (readScalar_numeral hrest hj)
    · rw [hds]
      rintro ⟨⟩
      rcases hc with hc | hc <;> cases hc
    · rw [hds]
      rintro ⟨⟩
      rcases hc with hc | hc <;> cases hc
  | .str s, fuel + 1, room, rest, _, _, _ => by
    have htext := readText_foldr s.toList [] rest
    rw [List.reverse_nil, List.nil_append, String.ofList_toList] at htext
    apply readNode_scalar rfl (by rintro ⟨⟩) (by rintro ⟨⟩)
    rw [write, writeText, readScalar, htext]
    rfl
  | .arr items, fuel + 1, room, rest, hj, _, hfuel => by
    rw [write, List.length_cons] at hfuel
    have hitems := readItems_write items fuel (room - 1) true [] rest hj (by omega)
    have hstep : readNode (fuel + 1) room (write (.arr items) rest) =
        contain room (.arr (readItems fuel (room - 1) true []
          (writeItems true items (']' :: rest))).1
          (readItems fuel (room - 1) true [] (writeItems true items (']' :: rest))).2.isSome)
          (readItems fuel (room - 1) true [] (writeItems true items (']' :: rest))).2 := rfl
    rw [hstep, hitems]
    by_cases hroom : room = 0 <;> simp [contain, hroom, Node.found]
  | .obj fields, fuel + 1, room, rest, hj, _, hfuel => by
    rw [write, List.length_cons] at hfuel
    have hfields := readFields_write fields fuel (room - 1) true [] rest hj (by omega)
    have hstep : readNode (fuel + 1) room (write (.obj fields) rest) =
        contain room (.obj (readFields fuel (room - 1) true []
          (writeFields true fields ('\x7d' :: rest))).1
          (readFields fuel (room - 1) true [] (writeFields true fields ('\x7d' :: rest))).2.isSome)
          (readFields fuel (room - 1) true [] (writeFields true fields ('\x7d' :: rest))).2 := rfl
    rw [hstep, hfields]
    by_cases hroom : room = 0 <;> simp [contain, hroom, Node.found]

theorem readItems_write : (items : List Json) → (fuel room : Nat) → (first : Bool) →
    (acc : List Node) → (rest : List Char) → ItemsExact items →
    2 * (writeItems first items (']' :: rest)).length + 2 ≤ fuel →
    readItems fuel room first acc (writeItems first items (']' :: rest)) =
      (acc.reverse ++ Node.foundItems room items, some rest)
  | [], fuel + 1, room, first, acc, rest, _, _ => by
    rw [Node.foundItems, List.append_nil]
    cases first <;> rfl
  | a :: r, fuel + 1, room, first, acc, rest, hj, hfuel => by
    have hlt := lt_length_write hj.1 (writeItems false r (']' :: rest))
    have hfuel' : 2 * (write a (writeItems false r (']' :: rest))).length + 1 ≤ fuel := by
      cases first <;> simp [writeItems] at hfuel <;> omega
    have hnode := readNode_write a fuel room _ hj.1 (endsNumber_writeItems r rest) hfuel'
    have hitems := readItems_write r fuel room false (Node.found room a :: acc) rest hj.2 (by omega)
    obtain ⟨c, s, hs, hc⟩ := write_eq_cons hj.1 (writeItems false r (']' :: rest))
    rw [hs] at hnode
    rw [writeItems, hs, readItems_step hc hnode, hitems, Node.foundItems, List.reverse_cons,
      List.append_assoc]
    rfl

theorem readFields_write : (fields : List (String × Json)) → (fuel room : Nat) → (first : Bool) →
    (acc : List (Option String × Node)) → (rest : List Char) → FieldsExact fields →
    2 * (writeFields first fields ('\x7d' :: rest)).length + 2 ≤ fuel →
    readFields fuel room first acc (writeFields first fields ('\x7d' :: rest)) =
      (acc.reverse ++ Node.foundFields room fields, some rest)
  | [], fuel + 1, room, first, acc, rest, _, _ => by
    rw [Node.foundFields, List.append_nil]
    cases first <;> rfl
  | (k, a) :: r, fuel + 1, room, first, acc, rest, hj, hfuel => by
    have hlt := lt_length_write hj.1 (writeFields false r ('\x7d' :: rest))
    have htext := length_le_writeText k (':' :: write a (writeFields false r ('\x7d' :: rest)))
    have hfuel' : 2 * (write a (writeFields false r ('\x7d' :: rest))).length + 1 ≤ fuel := by
      cases first <;> simp [writeFields] at hfuel htext <;> omega
    have hnode := readNode_write a fuel room _ hj.1 (endsNumber_writeFields r rest) hfuel'
    have hfields :=
      readFields_write r fuel room false ((some k, Node.found room a) :: acc) rest hj.2 (by omega)
    rw [writeFields, readFields_step k hnode, hfields, Node.foundFields, List.reverse_cons,
      List.append_assoc]
    rfl

end

variable {j : Json}

theorem readNode_text (h : j.IsExact) :
    readNode (2 * j.text.toList.length + 2) maxDepth j.text.toList =
      (Node.found maxDepth j, some []) := by
  rw [text, String.toList_ofList]
  exact readNode_write j _ maxDepth [] h (by simp [EndsNumber]) (by omega)

/-- The service reads what was written, as deep as the reader goes. -/
theorem readStart_text (h : j.IsExact) : readStart j.text = Node.found maxDepth j := by
  simp only [readStart, readNode_text h]

theorem read_text (h : j.IsExact) : read j.text = Node.found maxDepth j := by
  simp only [read, readNode_text h]
  rfl

theorem read_text_of_depth (h : j.IsExact) (hdepth : j.depth ≤ maxDepth) :
    read j.text = Node.ofJson j := by
  rw [read_text h, Node.found_of_depth j maxDepth hdepth]

end TagRetention.Json
