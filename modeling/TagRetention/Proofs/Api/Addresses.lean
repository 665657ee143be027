import TagRetention.Proofs.Api.Paths
import TagRetention.Proofs.Text.Numeral
import TagRetention.Proofs.Text.Separated

/-!
Targets that are put together from plain texts: the service takes them apart into the same texts.
A number is plain, and it reads back as the id that it was written for.
-/

namespace TagRetention.Api

open Text

/-- The path with these segments after the first slash. -/
def address : List String → String
  | [] => ""
  | w :: ws => "/" ++ w ++ address ws

/-- The characters that mean something in a path or a query. -/
def marks : List Char :=
  ['/', '?', '#', '%', '&', '=', '+']

/-- The text stands in a path or a query as it is. -/
def Plain (w : String) : Prop :=
  ∀ c ∈ w.toList, c ∉ marks

instance (w : String) : Decidable (Plain w) :=
  decidable_of_iff (w.toList.all (!marks.contains ·) = true) (by simp [Plain])

variable {w : String} {ws : List String} {id : Int} {c : Char} {s : List Char}

theorem plain_toString (n : Int) : Plain (toString n) := by
  intro c hc hmark
  rw [toList_toString_int] at hc
  rcases of_mem_numeral hc with rfl | hdigit
  · exact absurd hmark (by decide)
  · have hall : marks.all (!·.isDigit) = true := by decide
    have hnone := List.all_eq_true.mp hall c hmark
    rw [hdigit] at hnone
    cases hnone

theorem Plain.not_mem (h : Plain w) (hc : c ∈ marks) : c ∉ w.toList :=
  fun hmem => h c hmem hc

theorem percentDecode_of_not_mem (h : '%' ∉ s) : percentDecode s = s := by
  induction s with
  | nil => rfl
  | cons c s ih =>
    rw [List.mem_cons, not_or] at h
    rw [percentDecode, ih h.2]
    intro _ _ _ hc
    exact absurd hc.symm h.1

theorem pathId_toString (h : Fits 63 id) : pathId (toString id) = .ok id := by
  have hplain : '%' ∉ (toString id).toList := (plain_toString id).not_mem (by decide)
  rw [pathId, percentDecode_of_not_mem hplain, String.ofList_toList, int64_toString h]

theorem toList_address (w : String) (ws : List String) :
    (address (w :: ws)).toList = '/' :: (w.toList ++ (address ws).toList) := by
  simp [address]

theorem not_mem_address (hws : ∀ w ∈ ws, Plain w) (hc : c ∈ marks) (hslash : c ≠ '/') :
    c ∉ (address ws).toList := by
  induction ws with
  | nil => exact List.not_mem_nil
  | cons w ws ih =>
    rw [toList_address, List.mem_cons, List.mem_append, not_or, not_or]
    exact ⟨hslash, (hws w List.mem_cons_self).not_mem hc,
      ih fun v hv => hws v (List.mem_cons_of_mem w hv)⟩

theorem splitChars_append_address (hws : ∀ w ∈ ws, Plain w) (hs : '/' ∉ s) :
    splitChars '/' (s ++ (address ws).toList) = s :: ws.map String.toList := by
  induction ws generalizing s with
  | nil =>
    have hnone : (address []).toList = [] := rfl
    rw [hnone, List.append_nil, splitChars_of_not_mem hs, List.map_nil]
  | cons w ws ih =>
    have hplain : '/' ∉ w.toList := (hws w List.mem_cons_self).not_mem (by decide)
    rw [toList_address, splitChars_append hs, List.map_cons,
      ih (fun v hv => hws v (List.mem_cons_of_mem w hv)) hplain]

theorem segments_address (hws : ∀ w ∈ ws, Plain w) : segments (address ws).toList = "" :: ws := by
  have hpieces := splitChars_append_address hws (s := []) List.not_mem_nil
  rw [List.nil_append] at hpieces
  rw [segments, hpieces]
  simp [Function.comp_def]

theorem localTarget_address (hne : ws ≠ []) (t : List Char) :
    localTarget ((address ws).toList ++ t) = (address ws).toList ++ t := by
  obtain ⟨w, ws, rfl⟩ := List.exists_cons_of_ne_nil hne
  rw [toList_address]
  rfl

/-- A query may follow on the path. -/
theorem cutTarget_address (hws : ∀ w ∈ ws, Plain w) (hne : ws ≠ []) {q : String}
    (hq : '#' ∉ q.toList) (hhead : ∀ c ∈ q.toList.head?, c = '?') :
    cutTarget (address ws ++ q) = ((address ws).toList, q.toList.drop 1) := by
  have hwhole : (address ws ++ q).toList.takeWhile (· != '#') = (address ws).toList ++ q.toList := by
    rw [String.toList_append, takeWhile_of_not_mem]
    rw [List.mem_append, not_or]
    exact ⟨not_mem_address hws (by decide) (by decide), hq⟩
  have hmark : '?' ∉ (address ws).toList := not_mem_address hws (by decide) (by decide)
  have hpath : ((address ws).toList ++ q.toList).takeWhile (· != '?') = (address ws).toList := by
    cases hl : q.toList with
    | nil => rw [List.append_nil, takeWhile_of_not_mem hmark]
    | cons c r =>
      obtain rfl : c = '?' := hhead c (by rw [hl]; rfl)
      exact takeWhile_append hmark r
  simp only [cutTarget, hwhole, localTarget_address hne, hpath]
  rw [List.drop_append, List.drop_eq_nil_of_le (Nat.le_succ _), Nat.add_sub_cancel_left,
    List.nil_append]

theorem Plain.percentDecode (h : Plain w) :
    percentDecode (w.toList.map fun c => if c = '+' then ' ' else c) = w.toList := by
  have hsame : w.toList.map (fun c => if c = '+' then ' ' else c) = w.toList := by
    rw [List.map_congr_left (g := id), List.map_id]
    intro c hc
    refine if_neg ?_
    rintro rfl
    exact h '+' hc (by decide)
  rw [hsame, percentDecode_of_not_mem (h.not_mem (by decide))]

theorem not_mem_piece {name value : String} (hname : Plain name) (hvalue : Plain value) :
    '&' ∉ name.toList ++ '=' :: value.toList := by
  rw [List.mem_append, List.mem_cons, not_or, not_or]
  exact ⟨hname.not_mem (by decide), by decide, hvalue.not_mem (by decide)⟩

theorem queryPairs_piece {name value : String} (hname : Plain name) (hvalue : Plain value) :
    queryPairs (name.toList ++ '=' :: value.toList) = [(name.toList, value.toList)] := by
  have hcut : (name.toList ++ '=' :: value.toList).takeWhile (· != '=') = name.toList :=
    takeWhile_append (hname.not_mem (by decide)) value.toList
  have hrest : (name.toList ++ '=' :: value.toList).drop (name.toList.length + 1) =
      value.toList := by
    simp
  rw [queryPairs, splitChars_of_not_mem (not_mem_piece hname hvalue),
    List.filter_cons_of_pos (by simp)]
  simp only [List.filter_nil, List.map_cons, List.map_nil, hcut, hrest, hname.percentDecode,
    hvalue.percentDecode]

theorem queryPairs_append {piece : List Char} (h : '&' ∉ piece) (rest : List Char) :
    queryPairs (piece ++ '&' :: rest) = queryPairs piece ++ queryPairs rest := by
  simp only [queryPairs, splitChars_append h, splitChars_of_not_mem h, ← List.map_append,
    ← List.filter_append, List.singleton_append]

theorem queryNumber_single {pairs : List (List Char × List Char)} {name : String} {n : Nat}
    (h : pairs.filter (·.1 == name.toList) = [(name.toList, (toString n).toList)])
    (hn : n < 2 ^ 32) (default : Nat) : queryNumber pairs name default = .ok n := by
  rw [queryNumber, h]
  simp only [String.ofList_toList, natural_toString hn]

theorem ne_of_pathId (h : pathId w = .ok id) : w ≠ "" ∧ w ≠ "metadatas" := by
  constructor
  · rintro rfl
    have hbad : pathId "" = .error .badPath := rfl
    rw [hbad] at h
    cases h
  · rintro rfl
    have hbad : pathId "metadatas" = .error .badPath := rfl
    rw [hbad] at h
    cases h

theorem resourceOf_of_under {policy : String} {rest : List String} {resource : Resource}
    (hid : pathId policy = .ok id) (hlast : rest.getLast? ≠ some "")
    (h : Under policy rest resource) :
    resourceOf ("" :: "api" :: "retentions" :: policy :: rest) = some resource := by
  obtain ⟨hne, hmeta⟩ := ne_of_pathId hid
  cases h <;> simp_all [resourceOf]

theorem Request.segments_of_target {r : Request} {q : String} (hr : r.target = address ws ++ q)
    (hws : ∀ w ∈ ws, Plain w) (hne : ws ≠ []) (hq : '#' ∉ q.toList)
    (hhead : ∀ c ∈ q.toList.head?, c = '?') : r.segments = "" :: ws := by
  rw [Request.segments, hr, cutTarget_address hws hne hq hhead, segments_address hws]

end TagRetention.Api
