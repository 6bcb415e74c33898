import FieldRules.Fault
import FieldRules.Text.Row

namespace FieldRules.Text

theorem rowFields_of_line {place : RowPlace} {field cs : List Char}
    (h : ∀ c ∈ cs, isBreak c = false) : ∃ fields, rowFields place field cs = .ok fields ∧
      ∀ f ∈ fields, f.length ≤ field.length + cs.length := by
  induction cs generalizing place field with
  | nil =>
    refine ⟨[field.reverse], by cases place <;> rfl, ?_⟩
    simp
  | cons c cs ih =>
    have hc : isBreak c = false := h c List.mem_cons_self
    have ih := fun place field => @ih place field fun c hc => h c (List.mem_cons_of_mem _ hc)
    have hlonger : ∀ place field', field'.length ≤ field.length + 1 →
        ∃ fields, rowFields place field' cs = .ok fields ∧
          ∀ f ∈ fields, f.length ≤ field.length + (c :: cs).length := by
      intro place field' hfield
      obtain ⟨fields, hfields, hlength⟩ := ih place field'
      refine ⟨fields, hfields, fun f hf => ?_⟩
      have := hlength f hf
      rw [List.length_cons]
      omega
    have hnext : ∃ fields, (rowFields .fieldStart [] cs).map (field.reverse :: ·) = .ok fields ∧
        ∀ f ∈ fields, f.length ≤ field.length + (c :: cs).length := by
      obtain ⟨fields, hfields, hlength⟩ := ih .fieldStart []
      refine ⟨field.reverse :: fields, by rw [hfields]; rfl, fun f hf => ?_⟩
      rcases List.mem_cons.mp hf with rfl | hf
      · simp
      · have := hlength f hf
        simp only [List.length_nil, List.length_cons] at this ⊢
        omega
    cases place with
    | quoted =>
      rw [rowFields]
      split
      · exact hlonger _ _ (by omega)
      · exact hlonger _ _ (by simp)
    | fieldStart | plain | afterQuote =>
      rw [rowFields]
      · split
        · exact hlonger _ _ (by omega)
        · split
          · exact hlonger _ _ (by simp)
          · split
            · exact hnext
            · rw [if_neg (by simp [hc])]
              exact hlonger _ _ (by simp)
      · simp

theorem splitRow_of_line {cs : List Char} (hbreak : ∀ c ∈ cs, isBreak c = false)
    (hlength : cs.length ≤ fieldLimit) : ∃ fields, splitRow cs = .ok fields := by
  cases cs with
  | nil => exact ⟨[], rfl⟩
  | cons c cs =>
    obtain ⟨fields, hfields, hshort⟩ := @rowFields_of_line .fieldStart [] _ hbreak
    have hfits : fields.any (fieldLimit < ·.length) = false := by
      rw [List.any_eq_false]
      intro f hf
      have := hshort f hf
      simp only [List.length_nil, decide_eq_true_eq] at this ⊢
      omega
    refine ⟨fields, ?_⟩
    have hc : isBreak c = false := hbreak c List.mem_cons_self
    rw [splitRow, if_neg (by simp [hc]), hfields]
    simp [hfits]

end FieldRules.Text
