import FieldRules.Proofs.Request.Strays
import FieldRules.Proofs.Validation.Fitting

namespace FieldRules.Request

open Errors Validation

variable {limit : Numeral.DigitLimit} {bags : Bags} {rules : RuleMap} {method source codes : String}
  {ctx : Context} {data : Table Value}

theorem strays_eq_nil_iff_of_alone (hrules : ∀ e ∈ rules, Alone e.2) :
    strays bags rules source = [] ↔ ∀ bagName ∈ checkedBags, ∀ e ∈ bag bags bagName,
      ∃ r, Table.get? rules e.1 = some r ∧ bagName = sourceOf r.spec source := by
  unfold strays
  rw [List.flatMap_eq_nil_iff]
  simp only [List.flatMap_eq_nil_iff]
  have hone : ∀ (bagName name : String) (v : Value),
      strayOf rules source bagName name v = [] ↔
        ∃ r, Table.get? rules name = some r ∧ bagName = sourceOf r.spec source := by
    intro bagName name v
    unfold strayOf
    split
    next hnone => simp [hnone]
    next r hr =>
      have hbelow : belowField name v r = [] := by
        have hnested := (hrules (name, r) (Table.mem_of_get?_eq_some hr)).nested
        obtain ⟨spec, custom, requiredWhen, callback, nested⟩ := r
        cases hnested
        rw [belowField]
      rw [hbelow, hr]
      simp
  simp only [hone]

def InOrder (bags : Bags) (rules : RuleMap) (source : String) (data : Table Value) : Prop :=
  strays bags rules source = [] ∧ ∀ e ∈ rules, FieldMeets e.2 e.1 "" data

theorem validated_of_fitting (hrules : ∀ e ∈ rules, Fitting e.2 ∧ Alone e.2)
    (hcodes : isInternalCode codes = false)
    (h : extract limit bags rules (defaultSource method) = .ok data) (ctx : Context) :
    InOrder bags rules (defaultSource method) data ∧
        validated limit bags rules method ctx codes = .ok data ∨
      ¬InOrder bags rules (defaultSource method) data ∧
        ∃ details, validated limit bags rules method ctx codes =
          .error (.rejected (.invalidFields details)) := by
  by_cases hstrays : strays bags rules (defaultSource method) = []
  · obtain ⟨errors, herrors, hempty, hinternal⟩ :=
      Validator.errors_of_fitting { context := ctx, codes } hcodes hrules (.map data)
    rw [validated_of_checked h hstrays herrors]
    by_cases hmet : ∀ e ∈ rules, FieldMeets e.2 e.1 "" data
    · refine .inl ⟨⟨hstrays, hmet⟩, ?_⟩
      rw [hempty.mpr hmet]
      rfl
    · refine .inr ⟨fun hall => hmet hall.2, ?_⟩
      rcases raise_of_not_internal hinternal with hraise | ⟨details, hraise⟩
      · exact absurd (hempty.mp (raise_eq_ok.mp hraise)) hmet
      · exact ⟨details, by rw [hraise]; rfl⟩
  · exact .inr ⟨fun hall => hstrays hall.1, validated_of_strays ctx codes h hstrays⟩

end FieldRules.Request
