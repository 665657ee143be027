import TagRetention.Proofs.Selector.Spacing

/-!
The codec of patterns: which values, which typed texts and which stored patterns come back from it,
and what a pattern has in common with the same pattern without any braces.
-/

namespace TagRetention.Pattern

open Text

variable {s : List Char} {vs : List (List Char)}

theorem isWrapped_iff_ends :
    isWrapped s = true ↔ 2 ≤ s.length ∧ s.head? = some '\x7b' ∧ s.getLast? = some '\x7d' := by
  rw [isWrapped_iff]
  constructor
  · rintro ⟨inner, rfl⟩
    simp [List.getLast?_cons]
  · rintro ⟨hlength, hhead, hlast⟩
    obtain ⟨r, rfl⟩ := List.head?_eq_some_iff.1 hhead
    have hr : r ≠ [] := by
      rintro rfl
      simp at hlength
    rw [List.getLast?_cons_of_ne_nil hr] at hlast
    obtain ⟨inner, rfl⟩ := List.getLast?_eq_some_iff.1 hlast
    exact ⟨inner, rfl⟩

theorem isWrapped_toList_iff {t : String} :
    isWrapped t.toList = true ↔ ∃ x, t = "\x7b" ++ x ++ "\x7d" := by
  rw [isWrapped_iff]
  constructor
  · rintro ⟨inner, h⟩
    exact ⟨String.ofList inner, String.toList_inj.1 (by simp [h])⟩
  · rintro ⟨x, rfl⟩
    exact ⟨x.toList, by simp⟩

theorem braced_ne_self (s : List Char) : '\x7b' :: (s ++ ['\x7d']) ≠ s := by
  intro h
  have hlength := congrArg List.length h
  simp only [List.length_cons, List.length_append, List.length_nil] at hlength
  omega

theorem unwrapChars_eq_self_iff : unwrapChars s = s ↔ isWrapped s = false := by
  constructor
  · intro h
    by_contra hs
    rw [Bool.not_eq_false] at hs
    obtain ⟨inner, rfl⟩ := isWrapped_iff.1 hs
    rw [unwrapChars_wrapped] at h
    exact braced_ne_self inner h.symm
  · exact unwrapChars_of_not_isWrapped

theorem decodeChars_eq_iff :
    decodeChars s = vs ↔ vs ≠ [] ∧ (∀ v ∈ vs, ',' ∉ v) ∧ joinChars [','] vs = unwrapChars s :=
  splitChars_eq_iff

theorem encodeChars_of_one_lt (h : 1 < vs.length) :
    encodeChars vs = '\x7b' :: (joinChars [','] vs ++ ['\x7d']) := by
  match vs, h with
  | _ :: _ :: _, _ => rfl

theorem encodeChars_splitChars (s : List Char) :
    encodeChars (splitChars ',' s) = if ',' ∈ s then '\x7b' :: (s ++ ['\x7d']) else s := by
  split
  · rename_i h
    have hpos : 0 < s.countP (· == ',') := List.countP_pos_iff.mpr ⟨',', h, beq_self_eq_true ','⟩
    have hlength : 1 < (splitChars ',' s).length := by
      rw [splitChars, length_splitBy]
      omega
    rw [encodeChars_of_one_lt hlength, joinChars_splitChars]
  · rename_i h
    rw [splitChars_of_not_mem h]
    rfl

/-- Only braces around a single value are taken for those of the pattern. -/
theorem joinChars_eq_unwrapChars_encodeChars_iff (vs : List (List Char)) :
    joinChars [','] vs = unwrapChars (encodeChars vs) ↔ ∀ v, vs = [v] → isWrapped v = false := by
  match vs with
  | [] => simp [joinChars, encodeChars, unwrapChars]
  | [v] =>
    have hself : joinChars [','] [v] = unwrapChars (encodeChars [v]) ↔ unwrapChars v = v := eq_comm
    rw [hself, unwrapChars_eq_self_iff]
    simp
  | u :: v :: vs =>
    rw [encodeChars_of_one_lt (by simp), unwrapChars_wrapped]
    simp

theorem decodeChars_encodeChars_iff (vs : List (List Char)) :
    decodeChars (encodeChars vs) = vs ↔
      vs ≠ [] ∧ (∀ v ∈ vs, ',' ∉ v) ∧ ∀ v, vs = [v] → isWrapped v = false := by
  rw [decodeChars_eq_iff, joinChars_eq_unwrapChars_encodeChars_iff]

theorem toList_toField (pattern : String) :
    (toField pattern).toList = unwrapChars pattern.toList := by
  have hjoin : joinChars [','] (decodeChars pattern.toList) = unwrapChars pattern.toList :=
    joinChars_splitChars ','
  simpa [toField, join, decode] using hjoin

theorem toList_ofField (field : String) :
    (ofField field).toList =
      if ',' ∈ field.toList then '\x7b' :: (field.toList ++ ['\x7d']) else field.toList := by
  rw [← encodeChars_splitChars]
  simp [ofField, encode, split]

theorem toField_ofField_iff (field : String) :
    toField (ofField field) = field ↔ ',' ∈ field.toList ∨ isWrapped field.toList = false := by
  rw [← String.toList_inj, toList_toField, toList_ofField]
  by_cases h : ',' ∈ field.toList
  · simp [h, unwrapChars_wrapped]
  · simp [h, unwrapChars_eq_self_iff]

/-- A list stands in braces, and a single value does not. -/
def Editable (pattern : String) : Prop :=
  (∃ x, pattern = "\x7b" ++ x ++ "\x7d" ∧ ',' ∈ x.toList) ∨
    (',' ∉ pattern.toList ∧ ¬ ∃ x, pattern = "\x7b" ++ x ++ "\x7d")

theorem ofField_toField_iff (pattern : String) :
    ofField (toField pattern) = pattern ↔ Editable pattern := by
  rw [← String.toList_inj, toList_ofField, toList_toField]
  by_cases hwrapped : ∃ x, pattern = "\x7b" ++ x ++ "\x7d"
  · obtain ⟨x, rfl⟩ := hwrapped
    have htext : ("\x7b" ++ x ++ "\x7d").toList = '\x7b' :: (x.toList ++ ['\x7d']) := by simp
    rw [htext, unwrapChars_wrapped]
    by_cases hcomma : ',' ∈ x.toList
    · rw [if_pos hcomma]
      exact iff_of_true rfl (.inl ⟨x, rfl, hcomma⟩)
    · rw [if_neg hcomma]
      apply iff_of_false
      · exact (braced_ne_self x.toList).symm
      · rintro (⟨y, hy, hy'⟩ | ⟨-, h⟩)
        · rw [← String.toList_inj, htext] at hy
          have hxy : x.toList = y.toList := by simpa using hy
          exact hcomma (hxy ▸ hy')
        · exact h ⟨x, rfl⟩
  · have hplain : isWrapped pattern.toList = false := by
      rw [← Bool.not_eq_true, isWrapped_toList_iff]
      exact hwrapped
    rw [unwrapChars_of_not_isWrapped hplain]
    by_cases hcomma : ',' ∈ pattern.toList
    · rw [if_pos hcomma]
      apply iff_of_false
      · exact braced_ne_self pattern.toList
      · rintro (⟨y, hy, -⟩ | ⟨h, -⟩)
        · exact hwrapped ⟨y, hy⟩
        · exact h hcomma
    · rw [if_neg hcomma]
      exact iff_of_true rfl (.inr ⟨hcomma, hwrapped⟩)

theorem map_ofList_eq_iff {ws : List (List Char)} {vs : List String} :
    ws.map String.ofList = vs ↔ ws = vs.map String.toList := by
  constructor
  · rintro rfl
    simp
  · rintro rfl
    simp

theorem decode_encode_iff (vs : List String) :
    decode (encode vs) = vs ↔
      vs ≠ [] ∧ (∀ v ∈ vs, ',' ∉ v.toList) ∧ ∀ v, vs = [v] → isWrapped v.toList = false := by
  have hsingle : (∀ w, vs.map String.toList = [w] → isWrapped w = false) ↔
      ∀ v, vs = [v] → isWrapped v.toList = false := by
    simp [List.map_eq_singleton_iff]
  rw [decode, encode, String.toList_ofList, map_ofList_eq_iff, decodeChars_encodeChars_iff, hsingle]
  simp

/-- Values come back unless there are none, one has a comma, or a single one stands in braces; a
typed text comes back unless it is a single value in braces. -/
theorem codec_round_trip_iff :
    (∀ vs : List String, decode (encode vs) = vs ↔
      vs ≠ [] ∧ (∀ v ∈ vs, ',' ∉ v.toList) ∧
        ¬ ∃ v, vs = [v] ∧ 2 ≤ v.length ∧ v.toList.head? = some '\x7b' ∧
          v.toList.getLast? = some '\x7d') ∧
      ∀ t : String, toField (ofField t) = t ↔
        ',' ∈ t.toList ∨ ¬ ∃ x, t = "\x7b" ++ x ++ "\x7d" := by
  constructor
  · intro vs
    have hends (v : String) : isWrapped v.toList = false ↔
        ¬ (2 ≤ v.length ∧ v.toList.head? = some '\x7b' ∧ v.toList.getLast? = some '\x7d') := by
      rw [← Bool.not_eq_true, isWrapped_iff_ends, String.length_toList]
    simp only [decode_encode_iff, hends, not_exists, not_and]
  · intro t
    rw [toField_ofField_iff, ← isWrapped_toList_iff, Bool.not_eq_true]

/-- Braces do not change a list of two, nor does a lone one change a single value. -/
example : decode (encode ["\x7ba\x7d", "\x7b"]) = ["\x7ba\x7d", "\x7b"] ∧
    decode (encode ["\x7b"]) = ["\x7b"] := by
  decide +kernel

section Braces

variable {q : Char → Bool}

theorem filter_unwrapChars (hq : ∀ c, isBrace c = true → q c = false) (s : List Char) :
    (unwrapChars s).filter q = s.filter q := by
  cases hs : isWrapped s with
  | true =>
    obtain ⟨inner, rfl⟩ := isWrapped_iff.1 hs
    rw [unwrapChars_wrapped]
    simp [hq '\x7b' rfl, hq '\x7d' rfl]
  | false => rw [unwrapChars_of_not_isWrapped hs]

/-- Characters may be taken out before a pattern is taken apart or after, if all braces are among
them and no comma is. -/
theorem map_filter_decodeChars (hq : ∀ c, isBrace c = true → q c = false) (hcomma : q ',' = true)
    (s : List Char) : (decodeChars s).map (List.filter q) = splitChars ',' (s.filter q) := by
  have hsep : ∀ c : Char, (c == ',') = true → q c = true := by
    intro c hc
    rw [beq_iff_eq.1 hc, hcomma]
  rw [decodeChars, splitChars, map_filter_splitBy hsep, filter_unwrapChars hq, splitChars]

theorem map_filter_decode (hq : ∀ c, isBrace c = true → q c = false) (hcomma : q ',' = true)
    (pattern : String) :
    (decode pattern).map (fun t => String.ofList (t.toList.filter q)) =
      split ',' (String.ofList (pattern.toList.filter q)) := by
  rw [split, String.toList_ofList, ← map_filter_decodeChars hq hcomma, decode, List.map_map,
    List.map_map]
  apply List.map_congr_left
  intro v _
  simp

theorem map_stripBraces_decode (pattern : String) :
    (decode pattern).map stripBraces = split ',' (stripBraces pattern) :=
  map_filter_decode (by simp) rfl pattern

theorem stripBraces_squeeze (s : String) :
    stripBraces (squeeze s) = String.ofList (s.toList.filter fun c => !isBrace c && !isBlank c) := by
  rw [stripBraces, squeeze, String.toList_ofList, squeezeChars, List.filter_filter]

theorem map_stripBraces_squeeze_decode (pattern : String) :
    (decode pattern).map (fun t => stripBraces (squeeze t)) =
      split ',' (stripBraces (squeeze pattern)) := by
  simp only [stripBraces_squeeze]
  exact map_filter_decode (by simp_all) (by decide) pattern

end Braces

end TagRetention.Pattern
