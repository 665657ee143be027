import TagRetention.Proofs.Json.Same
import TagRetention.Proofs.Text.Trim
import TagRetention.Rule.Validation

/-!
The normal form of a rule. Normalising once is enough, and it keeps the equality of parameters.
-/

namespace TagRetention.Rule

theorem normalizeParam_str (s : String) :
    normalizeParam (Json.Value.str s) = paramOfText (Text.trim s) := rfl

/-- Only a text is not its own normal form. -/
theorem eq_str_or_normalizeParam_eq (v : Json.Value) :
    (∃ s, v = .str s) ∨ normalizeParam v = v := by
  obtain ⟨j, hj⟩ := v
  cases j with
  | str s => exact .inl ⟨s, rfl⟩
  | _ => exact .inr rfl

theorem normalizeParam_paramOfText (s : String) :
    normalizeParam (paramOfText (Text.trim s)) = paramOfText (Text.trim s) := by
  cases h : Text.int64 (Text.trim s) with
  | ok n => simp only [paramOfText, h]; rfl
  | error e =>
    have hp : paramOfText (Text.trim s) = .str (Text.trim s) := by simp [paramOfText, h]
    rw [hp, normalizeParam_str, Text.trim_idem, hp]

theorem normalizeParam_idem (v : Json.Value) :
    normalizeParam (normalizeParam v) = normalizeParam v := by
  rcases eq_str_or_normalizeParam_eq v with ⟨s, rfl⟩ | h
  · exact normalizeParam_paramOfText s
  · rw [h, h]

theorem eq_str_of_same {s : String} {v : Json.Value} (h : (Json.Value.str s).same v = true) :
    v = .str s := by
  obtain ⟨j, hj⟩ := v
  change (Json.str s).same j = true at h
  cases j <;> simp only [Json.same, Bool.false_eq_true, beq_iff_eq] at h
  subst h
  rfl

theorem normalizeParam_same (v w : Json.Value) (h : v.same w = true) :
    (normalizeParam v).same (normalizeParam w) = true := by
  rcases eq_str_or_normalizeParam_eq v with ⟨s, rfl⟩ | hv
  · rw [eq_str_of_same h]
    exact Json.same_refl _
  · rcases eq_str_or_normalizeParam_eq w with ⟨s, rfl⟩ | hw
    · rw [eq_str_of_same ((Json.same_comm _ _).trans h)]
      exact Json.same_refl _
    · rwa [hv, hw]

theorem normalize_idem (r : Rule) : r.normalize.normalize = r.normalize := by
  have hf : normalizeParam ∘ normalizeParam = normalizeParam := funext normalizeParam_idem
  simp only [normalize, Json.Members.map_map, hf, Text.trim_idem, Text.squeeze_idem]

theorem normalize_params_same {a b : Rule} (h : a.params.same b.params = true) :
    a.normalize.params.same b.normalize.params = true :=
  Json.Members.same_map normalizeParam_same h

end TagRetention.Rule
