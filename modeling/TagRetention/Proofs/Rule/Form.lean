import TagRetention.Proofs.Rule.NormalForm
import TagRetention.Proofs.Selector.Codec
import TagRetention.Proofs.Text.Numeral
import TagRetention.Rule.Form

/-!
Rules that are opened in an editor and saved as they are. The form has no room for some of what a
rule may hold, and its parameter is text that is read again.
-/

namespace TagRetention

open Text

/-- An integer of 64 bits, or a text that is not read as one and has no blanks at its ends. -/
def Json.Value.EditsAsText (v : Json.Value) : Prop :=
  (∃ n, v = .int n ∧ Fits 63 n) ∨
    ∃ s, v = .str s ∧ s ≠ "" ∧ trim s = s ∧ ∀ n, int64 s ≠ .ok n

/-- The form has room for all that the rule holds. -/
structure Rule.Editable (r : Rule) : Prop where
  priority : r.priority = 0
  action : r.action = "retain"
  repositoryKind : r.repository.kind = "doublestar"
  tagKind : r.tag.kind = "doublestar"
  labelKind : r.label.kind = "label"
  repositories : Pattern.Editable r.repository.pattern
  tags : Pattern.Editable r.tag.pattern
  params : r.params.entries = [] ∨
    ∃ v, r.params.entries = [(r.template, v)] ∧ v.EditsAsText

theorem Selector.ext {δ : Type} {s t : Selector δ} (hkind : s.kind = t.kind)
    (hdecoration : s.decoration = t.decoration) (hpattern : s.pattern = t.pattern) : s = t := by
  cases s
  cases t
  simp_all

theorem Rule.eq_iff (a b : Rule) :
    a = b ↔ a.priority = b.priority ∧ a.disabled = b.disabled ∧ a.action = b.action ∧
      a.template = b.template ∧ a.params.entries = b.params.entries ∧
      a.repository = b.repository ∧ a.tag = b.tag ∧ a.label = b.label := by
  obtain ⟨_, _, _, _, ⟨_, _⟩, _, _, _⟩ := a
  obtain ⟨_, _, _, _, ⟨_, _⟩, _, _, _⟩ := b
  simp

theorem Rule.same_iff (a b : Rule) :
    a.same b = true ↔ a.priority = b.priority ∧ a.disabled = b.disabled ∧ a.action = b.action ∧
      a.template = b.template ∧ a.params.same b.params = true ∧
      a.repository = b.repository ∧ a.tag = b.tag ∧ a.label = b.label := by
  simp [Rule.same, and_assoc]

theorem eq_int_of_same {n : Int} {v : Json.Value} (h : (Json.Value.int n).same v = true) :
    v = .int n := by
  obtain ⟨j, hj⟩ := v
  change (Json.num (.int n)).same j = true at h
  cases j <;> simp only [Json.same, Bool.false_eq_true] at h
  rename_i k
  cases k <;> simp only [Json.Number.same, Bool.false_eq_true, beq_iff_eq] at h
  subst h
  rfl

theorem trim_toString (n : Int) : trim (toString n) = toString n := by
  have hplain : ∀ c ∈ numeral n, isBlank c = false := by
    intro c hc
    rcases of_mem_numeral hc with rfl | hdigit
    · rfl
    · exact isBlank_of_isDigit hdigit
  rw [trim, toList_toString_int, trimChars_of_forall hplain, ← toList_toString_int,
    String.ofList_toList]

theorem paramText_int (n : Int) : paramText (.int n) = toString n := by
  have hwrite : paramText (.int n) = String.ofList ((toString n).toList ++ []) := rfl
  rw [hwrite, List.append_nil, String.ofList_toList]

theorem toString_ne_empty (n : Int) : toString n ≠ "" := by
  rw [Ne, ← String.toList_inj, toList_toString_int]
  exact numeral_ne_nil n

theorem paramOfText_cases (s : String) :
    (∃ n, int64 s = .ok n ∧ paramOfText s = .int n) ∨
      (∀ n, int64 s ≠ .ok n) ∧ paramOfText s = .str s := by
  rw [paramOfText]
  split
  · rename_i n hn
    exact .inl ⟨n, hn, rfl⟩
  · rename_i e he
    refine .inr ⟨fun n hn => ?_, rfl⟩
    rw [he] at hn
    cases hn

theorem paramOfText_paramText_iff (v : Json.Value) :
    (trim (paramText v) ≠ "" ∧ paramOfText (trim (paramText v)) = v) ↔ v.EditsAsText := by
  constructor
  · rintro ⟨hne, hv⟩
    rcases paramOfText_cases (trim (paramText v)) with ⟨n, hn, hint⟩ | ⟨hnone, hstr⟩
    · exact .inl ⟨n, hv.symm.trans hint, fits_of_int64_eq_ok hn⟩
    · have hs : v = .str (trim (paramText v)) := hv.symm.trans hstr
      have htrim : trim (paramText v) = paramText v := (congrArg paramText hs).symm
      exact .inr ⟨_, hs, hne, by rw [trim_idem], hnone⟩
  · rintro (⟨n, rfl, hn⟩ | ⟨s, rfl, hne, htrim, hnone⟩)
    · rw [paramText_int, trim_toString, paramOfText, int64_toString hn]
      exact ⟨toString_ne_empty n, rfl⟩
    · have htext : paramText (.str s) = s := rfl
      rw [htext, htrim]
      refine ⟨hne, ?_⟩
      rcases paramOfText_cases s with ⟨n, hn, -⟩ | ⟨-, hstr⟩
      · exact absurd hn (hnone n)
      · exact hstr

namespace RuleForm

variable {r : Rule}

theorem entries_toRule (f : RuleForm) :
    f.toRule.params.entries =
      if trim f.param = "" then [] else [(f.template, paramOfText (trim f.param))] := by
  simp only [toRule]
  split <;> rfl

theorem param_ofRule_empty (h : r.params.entries = []) : (ofRule r).param = "" := by
  have hnone : r.param? = none := by
    rw [Rule.param?, Json.Members.get?, h]
    rfl
  rw [ofRule, hnone]
  rfl

theorem param_ofRule_single {v : Json.Value} (h : r.params.entries = [(r.template, v)]) :
    (ofRule r).param = paramText v := by
  have hsome : r.param? = some v := by
    rw [Rule.param?, Json.Members.get?, h, Table.get?_cons, if_pos rfl]
  rw [ofRule, hsome]
  rfl

theorem entries_toRule_ofRule_iff (r : Rule) :
    (ofRule r).toRule.params.entries = r.params.entries ↔
      r.params.entries = [] ∨ ∃ v, r.params.entries = [(r.template, v)] ∧ v.EditsAsText := by
  rw [entries_toRule]
  constructor
  · intro h
    split at h
    · exact .inl h.symm
    · rename_i hne
      -- the parameter is what was read from its own text
      have hparam := param_ofRule_single h.symm
      refine .inr ⟨_, h.symm, (paramOfText_paramText_iff _).mp ?_⟩
      rw [← hparam]
      exact ⟨hne, rfl⟩
  · rintro (h | ⟨v, h, hv⟩)
    · rw [param_ofRule_empty h, h]
      rfl
    · obtain ⟨hne, heq⟩ := (paramOfText_paramText_iff v).mpr hv
      rw [param_ofRule_single h, if_neg hne, heq, h]
      rfl

theorem toRule_ofRule_iff (r : Rule) : (ofRule r).toRule = r ↔ r.Editable := by
  constructor
  · intro h
    exact {
      priority := (congrArg Rule.priority h).symm
      action := (congrArg Rule.action h).symm
      repositoryKind := (congrArg (·.repository.kind) h).symm
      tagKind := (congrArg (·.tag.kind) h).symm
      labelKind := (congrArg (·.label.kind) h).symm
      repositories := (Pattern.ofField_toField_iff _).mp (congrArg (·.repository.pattern) h)
      tags := (Pattern.ofField_toField_iff _).mp (congrArg (·.tag.pattern) h)
      params := (entries_toRule_ofRule_iff r).mp (congrArg (·.params.entries) h) }
  · intro h
    have hrepository : (ofRule r).toRule.repository = r.repository :=
      Selector.ext h.repositoryKind.symm rfl ((Pattern.ofField_toField_iff _).mpr h.repositories)
    have htag : (ofRule r).toRule.tag = r.tag :=
      Selector.ext h.tagKind.symm rfl ((Pattern.ofField_toField_iff _).mpr h.tags)
    have hlabel : (ofRule r).toRule.label = r.label :=
      Selector.ext h.labelKind.symm rfl rfl
    have hparams := (entries_toRule_ofRule_iff r).mpr h.params
    exact (Rule.eq_iff _ _).mpr ⟨h.priority.symm, rfl, h.action.symm, rfl, hparams, hrepository,
      htag, hlabel⟩

theorem same_paramOfText_iff {s : String} {v : Json.Value} :
    (paramOfText s).same v = true ↔ paramOfText s = v := by
  constructor
  · intro h
    rcases paramOfText_cases s with ⟨n, -, hint⟩ | ⟨-, hstr⟩
    · rw [hint] at h ⊢
      exact (eq_int_of_same h).symm
    · rw [hstr] at h ⊢
      exact (Rule.eq_str_of_same h).symm
  · rintro rfl
    exact Json.same_refl _

theorem same_params_toRule_iff (f : RuleForm) (m : Json.Members) :
    f.toRule.params.same m = true ↔ f.toRule.params.entries = m.entries := by
  rw [Json.Members.same_iff, entries_toRule]
  split
  · rw [List.forall₂_nil_left_iff, eq_comm]
  · rw [List.forall₂_cons_left_iff]
    constructor
    · rintro ⟨⟨k, v⟩, rest, ⟨rfl, hv⟩, hrest, hm⟩
      rw [List.forall₂_nil_left_iff] at hrest
      rw [hm, hrest, same_paramOfText_iff.mp hv]
    · intro h
      exact ⟨_, [], ⟨rfl, Json.same_refl _⟩, .nil, h.symm⟩

/-- What comes out of a form has no number with a point in it, so it is the same rule as another
only if it is equal to it. -/
theorem same_toRule_iff (f : RuleForm) (r : Rule) : f.toRule.same r = true ↔ f.toRule = r := by
  rw [Rule.same_iff, Rule.eq_iff, same_params_toRule_iff]

end RuleForm

/-- Exactly the editable rules come back when they are opened and saved, whether rules are held
equal as they are written or as documents are compared. -/
theorem reopened_unchanged_iff (r : Rule) :
    ((RuleForm.ofRule r).toRule = r ↔ r.Editable) ∧
      ((RuleForm.ofRule r).toRule.same r = true ↔ r.Editable) :=
  ⟨RuleForm.toRule_ofRule_iff r,
    (RuleForm.same_toRule_iff _ r).trans (RuleForm.toRule_ofRule_iff r)⟩

/-- Braces around a single value are lost. -/
example :
    let r := { Rule.blank with tag := TagDecoration.matches.selector "\x7bsolo\x7d" }
    (RuleForm.ofRule r).toRule.tag.pattern = "solo" := by
  decide +kernel

end TagRetention
