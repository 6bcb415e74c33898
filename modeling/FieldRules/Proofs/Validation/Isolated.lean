import FieldRules.Proofs.Validation.Visits

namespace FieldRules

namespace Errors

end Errors

namespace Validation

inductive Ungrouped : RuleMap → Prop
  | intro {rules : RuleMap} : (∀ e ∈ rules, e.2.spec.choiceGroup = none) →
      (∀ e ∈ rules, Ungrouped e.2.nestedRules) → Ungrouped rules

variable {s : Setting} {t : Struct} {rules others : RuleMap} {e : String × Rule} {v : Validator}
  {data : Value} {parent : String}

theorem Ungrouped.append (hrules : Ungrouped rules) (hothers : Ungrouped others) :
    Ungrouped (rules ++ others) := by
  obtain ⟨hgroups, hnested⟩ := hrules
  obtain ⟨hgroups', hnested'⟩ := hothers
  exact .intro (List.forall_mem_append.mpr ⟨hgroups, hgroups'⟩)
    (List.forall_mem_append.mpr ⟨hnested, hnested'⟩)

theorem Ungrouped.nil : Ungrouped [] := .intro (by simp) (by simp)

theorem Ungrouped.cons (hgroup : e.2.spec.choiceGroup = none) (hnested : Ungrouped e.2.nestedRules)
    (hrules : Ungrouped rules) : Ungrouped (e :: rules) := by
  obtain ⟨hgroups, hnesteds⟩ := hrules
  exact .intro (List.forall_mem_cons.mpr ⟨hgroup, hgroups⟩)
    (List.forall_mem_cons.mpr ⟨hnested, hnesteds⟩)

theorem Ungrouped.single (h : Ungrouped rules) (he : e ∈ rules) : Ungrouped [e] := by
  obtain ⟨hgroups, hnested⟩ := h
  exact .cons (hgroups e he) (hnested e he) .nil

end Validation

open Validation

end FieldRules
