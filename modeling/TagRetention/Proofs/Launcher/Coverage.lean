import TagRetention.Proofs.Launcher.Logs
import TagRetention.Proofs.Launcher.Selection
import TagRetention.Proofs.Policy.Validity
import TagRetention.Proofs.Selector.Codec

/-!
Whether a rule that passes selects anything. Completeness asks for a character that is no brace, so
a pattern of nothing but commas is complete and has no value.
-/

namespace TagRetention

open Text

namespace Pattern

/-- Commas and perhaps blanks among them, in braces or not. -/
def IsCommas (pattern : String) : Prop :=
  ∃ inner, ',' ∈ inner ∧ (∀ c ∈ inner, c = ',' ∨ isBlank c = true) ∧
    (pattern.toList = inner ∨ pattern.toList = '\x7b' :: (inner ++ ['\x7d']))

variable {s : List Char} {pattern : String}

theorem isCommas_iff (pattern : String) :
    IsCommas pattern ↔ ',' ∈ unwrapChars pattern.toList ∧
      ∀ c ∈ unwrapChars pattern.toList, c = ',' ∨ isBlank c = true := by
  constructor
  · rintro ⟨inner, hcomma, hall, h | h⟩
    · have hplain : isWrapped inner = false := by
        rw [← Bool.not_eq_true, isWrapped_iff]
        rintro ⟨more, rfl⟩
        exact absurd (hall '\x7b' List.mem_cons_self) (by decide)
      rw [h, unwrapChars_of_not_isWrapped hplain]
      exact ⟨hcomma, hall⟩
    · rw [h, unwrapChars_wrapped]
      exact ⟨hcomma, hall⟩
  · rintro ⟨hcomma, hall⟩
    refine ⟨_, hcomma, hall, ?_⟩
    cases hs : isWrapped pattern.toList with
    | true =>
      obtain ⟨inner, hinner⟩ := isWrapped_iff.1 hs
      rw [hinner, unwrapChars_wrapped]
      exact .inr rfl
    | false => exact .inl (unwrapChars_of_not_isWrapped hs).symm

-- Instance search may decide the bounded `∀` by running through all characters.
instance (pattern : String) : Decidable (IsCommas pattern) :=
  let inner := unwrapChars pattern.toList
  decidable_of_iff ((inner.contains ',' && inner.all fun c => c == ',' || isBlank c) = true) (by
    rw [isCommas_iff]
    simp [inner])

theorem mem_of_mem_unwrapChars {c : Char} (h : c ∈ unwrapChars s) : c ∈ s := by
  cases hs : isWrapped s with
  | true =>
    obtain ⟨inner, rfl⟩ := isWrapped_iff.1 hs
    rw [unwrapChars_wrapped] at h
    simp [h]
  | false => rwa [unwrapChars_of_not_isWrapped hs] at h

theorem exists_mem_value_iff {P : Char → Prop} :
    (∃ v ∈ decodeChars s, ∃ c ∈ v, P c) ↔ ∃ c ∈ unwrapChars s, c ≠ ',' ∧ P c := by
  have hchars (c : Char) : (∃ v ∈ decodeChars s, c ∈ v) ↔ c ∈ unwrapChars s ∧ c ≠ ',' := by
    have hflatten : (decodeChars s).flatten = (unwrapChars s).filter (!· == ',') :=
      flatten_splitBy (· == ',') (unwrapChars s)
    rw [← List.mem_flatten, hflatten]
    simp
  constructor
  · rintro ⟨v, hv, c, hc, hP⟩
    obtain ⟨hmem, hne⟩ := (hchars c).mp ⟨v, hv, hc⟩
    exact ⟨c, hmem, hne, hP⟩
  · rintro ⟨c, hmem, hne, hP⟩
    obtain ⟨v, hv, hc⟩ := (hchars c).mpr ⟨hmem, hne⟩
    exact ⟨v, hv, c, hc, hP⟩

theorem exists_value_iff (pattern : String) :
    (∃ t ∈ decode pattern, t ≠ "") ↔ ∃ c ∈ unwrapChars pattern.toList, c ≠ ',' := by
  have hvalues : (∃ t ∈ decode pattern, t ≠ "") ↔
      ∃ v ∈ decodeChars pattern.toList, ∃ c ∈ v, True := by
    simp [decode, List.eq_nil_iff_forall_not_mem]
  rw [hvalues, exists_mem_value_iff]
  simp

theorem trimmedChars_ne_nil_iff :
    trimmedChars s ≠ [] ↔ ∃ c ∈ unwrapChars s, c ≠ ',' ∧ isBlank c = false := by
  rw [← exists_mem_value_iff]
  simp [trimmedChars, trimChars_eq_nil_iff, squeezeChars]

/-- What is there besides braces and blanks is a comma or part of a value. -/
theorem isCommas_iff_of_complete (h : stripBraces (squeeze pattern) ≠ "") :
    IsCommas pattern ↔ ¬ ∃ c ∈ unwrapChars pattern.toList, c ≠ ',' ∧ isBlank c = false := by
  rw [isCommas_iff]
  constructor
  · rintro ⟨-, hall⟩ ⟨c, hc, hne, hblank⟩
    rcases hall c hc with rfl | hc'
    · exact hne rfl
    · rw [hblank] at hc'
      cases hc'
  · intro hnone
    have hall : ∀ c ∈ unwrapChars pattern.toList, c = ',' ∨ isBlank c = true := by
      intro c hc
      by_contra hc'
      rw [not_or, Bool.not_eq_true] at hc'
      exact hnone ⟨c, hc, hc'⟩
    -- deleting braces and blanks leaves a character, which is inside the braces
    let q : Char → Bool := fun c => !isBrace c && !isBlank c
    have hkept : (unwrapChars pattern.toList).filter q = pattern.toList.filter q :=
      filter_unwrapChars (by simp_all [q]) _
    have hsome : pattern.toList.filter q ≠ [] := by
      simpa [stripBraces_squeeze, q] using h
    obtain ⟨c, hc⟩ := List.exists_mem_of_ne_nil _ hsome
    rw [← hkept, List.mem_filter] at hc
    obtain ⟨hc, hq⟩ := hc
    rcases hall c hc with rfl | hblank
    · exact ⟨hc, hall⟩
    · simp [q, hblank] at hq

theorem exists_value_squeeze_iff (h : stripBraces (squeeze pattern) ≠ "") :
    (∃ t ∈ decode (squeeze pattern), t ≠ "") ↔ ¬ IsCommas (squeeze pattern) := by
  have hcomplete : stripBraces (squeeze (squeeze pattern)) ≠ "" := by rwa [squeeze_idem]
  rw [isCommas_iff_of_complete hcomplete, not_not, exists_value_iff]
  have hblank : ∀ c ∈ unwrapChars (squeeze pattern).toList, isBlank c = false := by
    intro c hc
    have hmem := mem_of_mem_unwrapChars hc
    rw [squeeze, String.toList_ofList] at hmem
    exact (mem_squeezeChars.1 hmem).2
  constructor
  · rintro ⟨c, hc, hne⟩
    exact ⟨c, hc, hne, hblank c hc⟩
  · rintro ⟨c, hc, hne, -⟩
    exact ⟨c, hc, hne⟩

end Pattern

open Pattern

namespace Rule

variable {r s : Rule} {m : Catalog} {existing : List Rule}

theorem repositories_ne_nil_iff (h : stripBraces r.normalize.repository.pattern ≠ "") :
    r.repositories ≠ [] ↔ ¬ IsCommas r.repository.pattern := by
  rw [isCommas_iff_of_complete h, not_not, ← trimmedChars_ne_nil_iff, repositories_eq]
  simp

theorem exists_value_of_validate (h : r.validate existing m = .ok s) :
    ((∃ t ∈ decode s.repository.pattern, t ≠ "") ↔ ¬ IsCommas s.repository.pattern) ∧
      ((∃ t ∈ decode s.tag.pattern, t ≠ "") ↔ ¬ IsCommas s.tag.pattern) := by
  obtain ⟨rfl, -, hcomplete, -⟩ := (validate_eq_ok_iff _ _ _ _).mp h
  simp only [isComplete, Bool.and_eq_true, bne_iff_ne] at hcomplete
  obtain ⟨⟨⟨-, hrepositories⟩, htags⟩, -⟩ := hcomplete
  exact ⟨exists_value_squeeze_iff hrepositories, exists_value_squeeze_iff htags⟩

end Rule

variable {p : Policy} {r : Rule} {m : Catalog}

theorem exists_job_iff (hr : r ∈ p.selecting)
    (h : stripBraces r.normalize.repository.pattern ≠ "") {jobs : List Job}
    (hjobs : jobs.map (·.repository) = p.targets) :
    (∃ job ∈ jobs, job.repository ∈ r.repositories) ↔ ¬ IsCommas r.repository.pattern := by
  rw [← Rule.repositories_ne_nil_iff h]
  constructor
  · rintro ⟨job, -, hjob⟩ hnone
    rw [hnone] at hjob
    cases hjob
  · intro hsome
    obtain ⟨t, ht⟩ := List.exists_mem_of_ne_nil _ hsome
    have htarget : t ∈ p.targets := Policy.mem_targets.2 ⟨r, hr, ht⟩
    rw [← hjobs] at htarget
    obtain ⟨job, hjob, rfl⟩ := List.mem_map.1 htarget
    exact ⟨job, hjob, ht⟩

/-- A pattern of a rule that passes has a value, and a rule in use starts a job for a repository
that it names, unless all that the pattern has in it is commas. -/
theorem selection_of_accepted (m : Catalog) :
    (∀ (r s : Rule) (existing : List Rule), r.validate existing m = .ok s →
      ((∃ t ∈ decode s.repository.pattern, t ≠ "") ↔ ¬ IsCommas s.repository.pattern) ∧
        ((∃ t ∈ decode s.tag.pattern, t ≠ "") ↔ ¬ IsCommas s.tag.pattern)) ∧
      ∀ p : Policy, p.check m = .ok () → ∀ r ∈ p.rules, r.disabled = false →
        r.repository.decoration = .repoMatches → ∀ now e j,
          ∃ jobs, (Journal.launcher.launch now p e j).1 = .ok jobs ∧
            ((∃ job ∈ jobs, job.repository ∈ r.repositories) ↔
              ¬ IsCommas r.repository.pattern) := by
  constructor
  · exact fun r s existing h => Rule.exists_value_of_validate h
  · intro p hp r hr hon hmatch now e j
    obtain ⟨jobs, j', hlaunch, htargets⟩ := Journal.launch_ok now p e j
    have hfit : r.Fit m := (Policy.valid_of_check hp).rules r hr
    refine ⟨jobs, by rw [hlaunch], ?_⟩
    exact exists_job_iff (Policy.mem_selecting.mpr ⟨hr, hon, hmatch⟩) hfit.repositories_ne htargets

theorem selection_of_accepted_list :
    let r := Rule.keepAlways "\x7b, library/a , \x7d"
    let e : Execution := ⟨1, 1, .pending, .manual, false, some default, none⟩
    (∃ t ∈ decode r.normalize.repository.pattern, t ≠ "") ∧
      ∃ jobs, (Journal.launcher.launch default (.ofRules [r]) e .empty).1 = .ok jobs ∧
        ∃ job ∈ jobs, job.repository ∈ r.repositories := by
  intro r e
  have hcheck : (Policy.ofRules [r]).check .standard = .ok () := by decide +kernel
  have hvalid : r.validate [] .standard = .ok r.normalize :=
    (Rule.validate_eq_ok_iff _ _ _ _).mpr ⟨rfl, by decide +kernel, by decide +kernel, nofun⟩
  obtain ⟨hrule, hpolicy⟩ := selection_of_accepted .standard
  obtain ⟨jobs, hjobs, hstarted⟩ :=
    hpolicy _ hcheck r (List.mem_singleton.mpr rfl) rfl rfl default e .empty
  exact ⟨(hrule r _ [] hvalid).1.mpr (by decide +kernel), jobs, hjobs,
    hstarted.mpr (by decide +kernel)⟩

/-- A lone comma passes, has two empty values and starts no job. -/
theorem comma_selects_nothing :
    let r := Rule.keepAlways ","
    r.validate [] .standard = .ok r.normalize ∧
      decode r.normalize.repository.pattern = ["", ""] ∧
      (Policy.ofRules [r]).check .standard = .ok () ∧ (Policy.ofRules [r]).targets = [] := by
  intro r
  refine ⟨(Rule.validate_eq_ok_iff _ _ _ _).mpr ⟨rfl, ?_, ?_, nofun⟩, ?_, ?_, ?_⟩ <;>
    decide +kernel

end TagRetention
