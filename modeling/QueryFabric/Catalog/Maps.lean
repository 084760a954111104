import QueryFabric.Catalog.Model

/-!
# The orders of the keys

The keys of a catalog's maps, and the parameter references, are in strict total orders.
-/

namespace QueryFabric

/-- Names are ordered by their namespaces first. -/
theorem isKeyOrder_nameKeyLt : IsKeyOrder nameKeyLt where
  irrefl a := by
    obtain ⟨_ | ns, name⟩ := a <;> simp [nameKeyLt, optionLt]
  -- Names without a namespace come first; the names decide within a namespace.
  trans {a b c} hab hbc := by
    obtain ⟨_ | a, x⟩ := a <;> obtain ⟨_ | b, y⟩ := b <;> obtain ⟨_ | c, z⟩ := c <;>
      simp only [nameKeyLt, optionLt, Bool.or_eq_true, Bool.and_eq_true, decide_eq_true_eq,
        beq_iff_eq, Bool.false_eq_true, reduceCtorEq, false_and, false_or, true_and, or_false,
        Option.some_inj] at hab hbc ⊢
    · exact hab.trans hbc
    · obtain hab | ⟨rfl, hxy⟩ := hab
      · obtain hbc | ⟨rfl, -⟩ := hbc
        · exact .inl (hab.trans hbc)
        · exact .inl hab
      · obtain hbc | ⟨rfl, hyz⟩ := hbc
        · exact .inl hbc
        · exact .inr ⟨rfl, hxy.trans hyz⟩
  trichotomy a b hab hba := by
    obtain ⟨_ | a, x⟩ := a <;> obtain ⟨_ | b, y⟩ := b <;>
      simp only [nameKeyLt, optionLt, Bool.or_eq_false_iff, Bool.and_eq_false_iff,
        decide_eq_false_iff_not, beq_eq_false_iff_ne, ne_eq, not_lt, reduceCtorEq, not_true,
        not_false_iff, false_or, true_and, Bool.true_eq_false, true_or, and_true, Option.some_inj]
        at hab hba
    · rw [le_antisymm hba hab]
    -- Neither namespace comes before the other, so the names were compared.
    · obtain rfl : a = b := le_antisymm hba.1 hab.1
      have hxy := hab.2.resolve_left (not_not.mpr rfl)
      have hyx := hba.2.resolve_left (not_not.mpr rfl)
      rw [le_antisymm hyx hxy]

/-- The order of parameter references. -/
theorem isKeyOrder_parameterRef : IsKeyOrder fun a b : ParameterRef => !ParameterRef.le b a where
  irrefl a := by
    cases a <;> simp [ParameterRef.le]
  trans {a b c} hab hbc := by
    simp only [Bool.not_eq_true'] at hab hbc ⊢
    cases a <;> cases b <;> cases c <;>
      simp only [ParameterRef.le, decide_eq_false_iff_not, not_le, Bool.true_eq_false] at hab hbc ⊢
    · exact lt_trans hab hbc
    · exact lt_trans hab hbc
  trichotomy a b hab hba := by
    simp only [Bool.not_eq_false'] at hab hba
    cases a <;> cases b <;>
      simp only [ParameterRef.le, decide_eq_true_eq, Bool.false_eq_true] at hab hba
    · rw [le_antisymm hba hab]
    · rw [le_antisymm hba hab]

end QueryFabric
