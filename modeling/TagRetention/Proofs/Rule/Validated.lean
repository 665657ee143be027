import TagRetention.Proofs.Launcher.Targets
import TagRetention.Proofs.Policy.Validity
import TagRetention.Proofs.Text.Numeral

/-!
What validation returns is the normal form of what it was given. The normal form reads as the same
rule, passes exactly where the rule does, and holds its parameter as a number once it has passed.
-/

namespace TagRetention

/-- The whole number that a parameter stands for, in text or not. -/
def Json.Value.number? (v : Json.Value) : Option Int :=
  match v.json with
  | .num (.int n) => if -Int.pow 2 63 ≤ n ∧ n < Int.pow 2 63 then some n else none
  | .str s => (Text.int64 (Text.trim s)).toOption
  | _ => none

namespace Rule

open Json.Value (number?)

theorem paramNumber?_eq (r : Rule) : r.paramNumber? = r.param?.bind number? := rfl

theorem param?_normalize (r : Rule) : r.normalize.param? = r.param?.map normalizeParam :=
  Table.get?_mapValues normalizeParam

theorem number?_int {n : Int} (h : Fits 63 n) : number? (.int n) = some n :=
  if_pos h

theorem number?_normalizeParam (v : Json.Value) : number? (normalizeParam v) = number? v := by
  rcases eq_str_or_normalizeParam_eq v with ⟨s, rfl⟩ | hv
  · rw [normalizeParam_str, paramOfText]
    have hread : number? (.str s) = (Text.int64 (Text.trim s)).toOption := rfl
    rw [hread]
    cases hs : Text.int64 (Text.trim s) with
    | ok n => exact number?_int (Text.fits_of_int64_eq_ok hs)
    | error e =>
      -- a text that is no number is trimmed, and trimming it again changes nothing
      have htrim : number? (.str (Text.trim s)) = (Text.int64 (Text.trim (Text.trim s))).toOption :=
        rfl
      exact htrim.trans (by rw [Text.trim_idem, hs])
  · rw [hv]

/-- In normal form only a number stands for a number. -/
theorem eq_int_of_number? {v : Json.Value} {n : Int} (hv : normalizeParam v = v)
    (h : number? v = some n) : v = .int n := by
  obtain ⟨j, hj⟩ := v
  cases j with
  | num k =>
    cases k with
    | int k =>
      have hk : (if -Int.pow 2 63 ≤ k ∧ k < Int.pow 2 63 then some k else none) = some n := h
      split at hk
      · obtain rfl := Option.some.inj hk
        rfl
      · cases hk
    | float k => cases h
  | str s =>
    have hs : (Text.int64 (Text.trim s)).toOption = some n := h
    have hnormal : paramOfText (Text.trim s) = .str s := hv
    cases hread : Text.int64 (Text.trim s) with
    | ok k =>
      rw [paramOfText, hread] at hnormal
      cases congrArg Json.Value.json hnormal
    | error e =>
      rw [hread] at hs
      cases hs
  | _ => cases h

theorem paramNumber?_normalize (r : Rule) : r.normalize.paramNumber? = r.paramNumber? := by
  rw [paramNumber?_eq, paramNumber?_eq, param?_normalize, Option.bind_map]
  congr 1
  exact funext number?_normalizeParam

/-- The two rules differ in the texts of their patterns and the values of their parameters at
most. -/
structure Respells (r s : Rule) : Prop where
  priority : s.priority = r.priority
  disabled : s.disabled = r.disabled
  action : s.action = r.action
  template : s.template = r.template
  params : s.params.entries.keys = r.params.entries.keys
  repository : s.repository.kind = r.repository.kind ∧
    s.repository.decoration = r.repository.decoration
  tag : s.tag.kind = r.tag.kind ∧ s.tag.decoration = r.tag.decoration
  label : s.label.kind = r.label.kind ∧ s.label.decoration = r.label.decoration

theorem respells_normalize (r : Rule) : r.Respells r.normalize where
  priority := rfl
  disabled := rfl
  action := rfl
  template := rfl
  params := by
    simp only [normalize, Json.Members.map, Table.keys, Table.mapValues, List.map_map]
    rfl
  repository := ⟨rfl, rfl⟩
  tag := ⟨rfl, rfl⟩
  label := ⟨rfl, rfl⟩

theorem validate_normalize (r : Rule) (existing : List Rule) (m : Catalog) :
    r.normalize.validate existing m = r.validate existing m := by
  rw [validate, validate, prepare, prepare, normalize_idem]

theorem unspaced_squeeze (s : String) : Unspaced (Text.squeeze s) := by
  intro c hc
  rw [Text.squeeze, String.toList_ofList] at hc
  exact (Text.mem_squeezeChars.1 hc).2

theorem exists_int_of_isComplete {r : Rule} {m : Catalog} (h : r.normalize.isComplete m = true)
    (hp : m.hasParam r.template = true) :
    ∃ n, r.normalize.param? = some (.int n) ∧ 0 ≤ n ∧ n < 2100000000 := by
  have hnumber : r.normalize.hasNumber = true := by
    have hshare : m.hasParam r.normalize.template = true := hp
    rw [isComplete, hshare] at h
    simpa using (Bool.and_eq_true_iff.mp h).2
  obtain ⟨n, hn, hrange⟩ := exists_of_hasNumber hnumber
  rw [paramNumber?_eq, param?_normalize, Option.bind_eq_some_iff] at hn
  obtain ⟨v, hv, hvn⟩ := hn
  obtain ⟨w, -, rfl⟩ := Option.map_eq_some_iff.mp hv
  refine ⟨n, ?_, hrange⟩
  rw [param?_normalize, hv, eq_int_of_number? (normalizeParam_idem w) hvn]

/-- Normalising changes nothing about what a rule says or how it is judged, and a rule that passes
comes out in a normal form without blanks in its names and with a number for its parameter. -/
theorem validated_normal_form (r : Rule) (existing : List Rule) (m : Catalog) :
    r.normalize.normalize = r.normalize ∧ r.normalize.paramNumber? = r.paramNumber? ∧
      r.Respells r.normalize ∧ r.normalize.validate existing m = r.validate existing m ∧
      ∀ s, r.validate existing m = .ok s →
        s = r.normalize ∧ s.validate existing m = .ok s ∧
        Unspaced s.repository.pattern ∧ Unspaced s.tag.pattern ∧
        (m.hasParam s.template = true →
          ∃ n, s.param? = some (.int n) ∧ 0 ≤ n ∧ n < 2100000000) := by
  refine ⟨r.normalize_idem, r.paramNumber?_normalize, r.respells_normalize,
    r.validate_normalize existing m, fun s hs => ?_⟩
  obtain ⟨rfl, -, hcomplete, -⟩ := (r.validate_eq_ok_iff s existing m).mp hs
  refine ⟨rfl, ?_, unspaced_squeeze _, unspaced_squeeze _, exists_int_of_isComplete hcomplete⟩
  rw [validate_normalize, hs]

/-- A rule typed with blanks around its parameter. -/
def spacedCount : Rule :=
  { Rule.blank with
    template := "latestPushedK"
    params := Json.Members.empty.insert "latestPushedK" (.str " +010 ")
    repository := RepositoryDecoration.repoMatches.selector "{lib, app}"
    tag := TagDecoration.matches.selector "**" }

theorem spacedCount_validated :
    Unspaced spacedCount.normalize.repository.pattern ∧
      ∃ n, spacedCount.normalize.param? = some (.int n) ∧ 0 ≤ n ∧ n < 2100000000 := by
  have hvalid : spacedCount.validate [] Catalog.standard = .ok spacedCount.normalize :=
    (spacedCount.validate_eq_ok_iff _ _ _).mpr ⟨rfl, by decide +kernel, by decide +kernel, by simp⟩
  obtain ⟨-, -, -, -, hpassed⟩ := validated_normal_form spacedCount [] Catalog.standard
  obtain ⟨-, -, hrepository, -, hparam⟩ := hpassed _ hvalid
  exact ⟨hrepository, hparam (by decide +kernel)⟩

end Rule

end TagRetention
