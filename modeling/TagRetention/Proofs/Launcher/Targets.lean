import TagRetention.Launcher
import TagRetention.Proofs.Policy.Duplicates
import TagRetention.Proofs.Selector.Spacing

/-!
The repositories that a run is started for, against those that the normal forms of the rules name.
Rules are checked in normal form but run as they were sent, and blanks can make a difference.
-/

namespace TagRetention

open Text Pattern

theorem mem_distinct {α : Type} [DecidableEq α] {a : α} {l : List α} :
    a ∈ distinct l ↔ a ∈ l := by
  induction l with
  | nil => rfl
  | cons b l ih =>
    by_cases h : a = b
    · simp [distinct, h]
    · simp [distinct, h, ih]

/-- A text without a blank. -/
def Unspaced (s : String) : Prop := ∀ c ∈ s.toList, isBlank c = false

namespace Rule

/-- No blank stands before or after the braces around the repositories. -/
def KeepsBraces (r : Rule) : Prop :=
  isWrapped (squeezeChars r.repository.pattern.toList) = isWrapped r.repository.pattern.toList

variable {r : Rule}

theorem repositories_eq (r : Rule) :
    r.repositories = (trimmedChars r.repository.pattern.toList).map String.ofList := by
  have htrim : trim ∘ String.ofList = String.ofList ∘ trimChars := by
    funext v
    rw [Function.comp_apply, trim, String.toList_ofList, Function.comp_apply]
  rw [repositories, decode, trimmedChars, List.map_map, htrim, ← List.map_map, filter_map_ofList]

theorem repositories_normalize_eq_iff (r : Rule) :
    r.normalize.repositories = r.repositories ↔
      r.KeepsBraces ∧ ∀ t ∈ r.repositories, Unspaced t := by
  have hpattern : r.normalize.repository.pattern.toList =
      squeezeChars r.repository.pattern.toList := by
    simp only [normalize, squeeze, String.toList_ofList]
  rw [repositories_eq, repositories_eq, hpattern, List.map_inj_right,
    trimmedChars_squeezeChars_eq_iff]
  · simp only [KeepsBraces, Unspaced, List.forall_mem_map, String.toList_ofList]
  · exact fun _ _ => String.ofList_injective

theorem unspaced_of_mem_normalize {t : String} (h : t ∈ r.normalize.repositories) :
    Unspaced t := by
  have hself : r.normalize.normalize.repositories = r.normalize.repositories := by
    rw [normalize_idem]
  exact ((repositories_normalize_eq_iff r.normalize).1 hself).2 t h

end Rule

namespace Policy

/-- The rules that name the repositories of a run. -/
def selecting (p : Policy) : List Rule :=
  p.rules.filter fun r => !r.disabled && r.repository.decoration == .repoMatches

def normalized (p : Policy) : Policy :=
  { p with rules := p.rules.map Rule.normalize }

variable {p : Policy} {t : String}

theorem selecting_normalized (p : Policy) :
    p.normalized.selecting = p.selecting.map Rule.normalize :=
  List.filter_map

theorem mem_targets : t ∈ p.targets ↔ ∃ r ∈ p.selecting, t ∈ r.repositories := by
  rw [targets, mem_distinct, List.mem_flatMap]
  rfl

theorem unspaced_of_mem_normalized (h : t ∈ p.normalized.targets) : Unspaced t := by
  obtain ⟨r, hr, ht⟩ := mem_targets.1 h
  rw [selecting_normalized] at hr
  obtain ⟨r, -, rfl⟩ := List.mem_map.1 hr
  exact Rule.unspaced_of_mem_normalize ht

theorem targets_normalized_of_selecting
    (h : ∀ r ∈ p.selecting, r.normalize.repositories = r.repositories) :
    p.normalized.targets = p.targets := by
  have hrules : p.normalized.selecting.flatMap Rule.repositories =
      p.selecting.flatMap Rule.repositories := by
    rw [selecting_normalized, List.flatMap_map]
    exact List.flatMap_congr h
  exact congrArg distinct hrules

end Policy

/-- A rule names the same repositories as its normal form exactly if no blank hides its braces and
none is inside a name. A policy does so only if no blank is inside a name, and then it does as long
as none hides braces either. -/
theorem targets_of_spacing (p : Policy) :
    (∀ r ∈ p.rules, r.normalize.repositories = r.repositories ↔
      r.KeepsBraces ∧ ∀ t ∈ r.repositories, Unspaced t) ∧
    (p.normalized.targets = p.targets → ∀ t ∈ p.targets, Unspaced t) ∧
    ((∀ r ∈ p.selecting, r.KeepsBraces) → (∀ t ∈ p.targets, Unspaced t) →
      p.normalized.targets = p.targets) := by
  refine ⟨fun r _ => r.repositories_normalize_eq_iff, fun heq t ht => ?_, fun hbraces h => ?_⟩
  · rw [← heq] at ht
    exact Policy.unspaced_of_mem_normalized ht
  · refine Policy.targets_normalized_of_selecting fun r hr => ?_
    have hnames : ∀ t ∈ r.repositories, Unspaced t := fun t ht =>
      h t (Policy.mem_targets.2 ⟨r, hr, ht⟩)
    exact (Rule.repositories_normalize_eq_iff r).2 ⟨hbraces r hr, hnames⟩

instance (s : String) : Decidable (Unspaced s) :=
  List.decidableBAll (fun c => isBlank c = false) s.toList

instance (r : Rule) : Decidable r.KeepsBraces :=
  inferInstanceAs (Decidable (_ = _))

theorem targets_of_blanks_inside :
    let p := Policy.ofRules [.keepAlways "\x7b library/a , library/b \x7d"]
    p.check .standard = .ok () ∧ p.normalized.targets = p.targets ∧
      p.targets = ["library/a", "library/b"] := by
  intro p
  have hcheck : p.check .standard = .ok () := by decide +kernel
  have hbraces : ∀ r ∈ p.selecting, r.KeepsBraces := by decide +kernel
  have htargets : p.targets = ["library/a", "library/b"] := by decide +kernel
  have hnames : ∀ t ∈ p.targets, Unspaced t := by decide +kernel
  exact ⟨hcheck, (targets_of_spacing p).2.2 hbraces hnames, htargets⟩

/-- A blank before the braces leaves them in the names; a blank inside a name stays there. -/
theorem targets_of_blanks_outside :
    let braced := Policy.ofRules [.keepAlways " \x7blibrary/a,library/b\x7d"]
    let spaced := Policy.ofRules [.keepAlways "team/my app"]
    braced.check .standard = .ok () ∧ braced.targets = ["\x7blibrary/a", "library/b\x7d"] ∧
      braced.normalized.targets = ["library/a", "library/b"] ∧
      spaced.check .standard = .ok () ∧ spaced.targets = ["team/my app"] ∧
      spaced.normalized.targets = ["team/myapp"] := by
  decide +kernel

end TagRetention
