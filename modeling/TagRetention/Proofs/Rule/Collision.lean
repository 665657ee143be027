import TagRetention.Proofs.Rule.NormalForm

/-!
Collision of rules is an equivalence, and normalising two rules that collide gives two that do. So
a normal form collides with a rule as it was sent only if that rule is, as far as collisions go, its
own normal form.
-/

namespace TagRetention.Rule

theorem collides_iff (a b : Rule) (m : Catalog) :
    a.collides b m = true ↔
      a.repository.decoration = b.repository.decoration ∧
        a.repository.pattern = b.repository.pattern ∧ a.template = b.template ∧
        a.tag.decoration = b.tag.decoration ∧ a.tag.pattern = b.tag.pattern ∧
        (m.hasParam a.template = true → a.params.same b.params = true) := by
  simp only [collides, Bool.and_eq_true, Bool.or_eq_true, Bool.not_eq_true', beq_iff_eq, and_assoc]
  cases m.hasParam a.template <;> simp

theorem collides_refl (a : Rule) (m : Catalog) : a.collides a m = true := by
  simp [collides_iff, Json.Members.same_refl]

theorem collides_symm {a b : Rule} {m : Catalog} (h : a.collides b m = true) :
    b.collides a m = true := by
  rw [collides_iff] at h ⊢
  obtain ⟨h1, h2, h3, h4, h5, h6⟩ := h
  refine ⟨h1.symm, h2.symm, h3.symm, h4.symm, h5.symm, fun hp => ?_⟩
  rw [Json.Members.same_comm]
  exact h6 (h3 ▸ hp)

theorem collides_comm (a b : Rule) (m : Catalog) : a.collides b m = b.collides a m :=
  Bool.eq_iff_iff.mpr ⟨collides_symm, collides_symm⟩

theorem collides_trans {a b c : Rule} {m : Catalog} (h : a.collides b m = true)
    (h' : b.collides c m = true) : a.collides c m = true := by
  rw [collides_iff] at *
  obtain ⟨h1, h2, h3, h4, h5, h6⟩ := h
  obtain ⟨h1', h2', h3', h4', h5', h6'⟩ := h'
  exact ⟨h1.trans h1', h2.trans h2', h3.trans h3', h4.trans h4', h5.trans h5',
    fun hp => Json.Members.same_trans (h6 hp) (h6' (h3 ▸ hp))⟩

theorem collides_normalize {a b : Rule} {m : Catalog} (h : a.collides b m = true) :
    a.normalize.collides b.normalize m = true := by
  rw [collides_iff] at *
  obtain ⟨h1, h2, h3, h4, h5, h6⟩ := h
  exact ⟨h1, congrArg Text.squeeze h2, h3, h4, congrArg Text.squeeze h5,
    fun hp => normalize_params_same (h6 hp)⟩

/-- The rule is its own normal form as far as collisions go. -/
def IsNormal (r : Rule) (m : Catalog) : Prop :=
  r.normalize.collides r m = true

theorem isNormal_normalize (r : Rule) (m : Catalog) : r.normalize.IsNormal m := by
  rw [IsNormal, normalize_idem]
  exact collides_refl _ m

theorem normalize_collides_iff (a b : Rule) (m : Catalog) :
    b.normalize.collides a m = true ↔
      a.normalize.collides b.normalize m = true ∧ a.IsNormal m := by
  constructor
  · intro h
    have hn := collides_normalize h
    rw [normalize_idem] at hn
    exact ⟨collides_symm hn, collides_trans (collides_symm hn) h⟩
  · rintro ⟨hn, ha⟩
    exact collides_trans (collides_symm hn) ha

theorem normalize_collides_eq_false_iff (a b : Rule) (m : Catalog) :
    b.normalize.collides a m = false ↔
      (a.normalize.collides b.normalize m = true → ¬ a.IsNormal m) := by
  rw [← Bool.not_eq_true, normalize_collides_iff, not_and]

theorem IsNormal.normalize_collides {r : Rule} {m : Catalog} (h : r.IsNormal m) (e : Rule) :
    r.normalize.collides e m = r.collides e m :=
  Bool.eq_iff_iff.mpr ⟨collides_trans (collides_symm h), collides_trans h⟩

end TagRetention.Rule
