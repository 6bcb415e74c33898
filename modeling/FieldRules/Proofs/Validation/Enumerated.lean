import FieldRules.Proofs.Validation.Verdict
import FieldRules.Validation.Payload

namespace FieldRules.Validation

variable {codes name t : String} {texts : List String} {spec : RuleSpec} {data : Table Value}
  {fault : Fault}

theorem enumerated?_texts (henum : spec.enumValues = some (.tuple (texts.map .str)))
    (htexts : texts ≠ []) (v : Value) :
    enumerated? spec v = .ok ((texts.map Value.str).any (Value.same · v)) := by
  have hhas : spec.hasEnum = true := by
    rw [RuleSpec.hasEnum, henum]
    simpa [Value.truthy] using htexts
  rw [enumerated?, if_pos hhas, henum]
  rfl

theorem any_same_str_iff : (texts.map Value.str).any (Value.same · (.str t)) = true ↔
    t ∈ texts := by
  simp [Value.same, Value.samePlain]

theorem checkEnum_eq_ok_iff (henum : spec.enumValues = some (.tuple (texts.map .str)))
    (htexts : texts ≠ []) (hget : data.get? name = some (.str t)) (ht : t ≠ "") :
    checkEnum codes name data spec = .ok () ↔ t ∈ texts := by
  have hinformed : Filter.Grammar.informed? data name = some (.str t) := by
    simp [Filter.Grammar.informed?, hget, Value.isBlank, ht]
  rw [checkEnum, hinformed]
  dsimp only
  rw [enumerated?_texts henum htexts, ← any_same_str_iff]
  cases (texts.map Value.str).any (Value.same · (.str t)) <;> simp

theorem checkEntityEnum_eq_ok_iff (henum : spec.enumValues = some (.tuple (texts.map .str)))
    (htexts : texts ≠ []) (hget : data.get? name = some (.str t)) :
    checkEntityEnum name data spec = .ok () ↔ t ∈ texts := by
  rw [checkEntityEnum, hget, Option.getD_some, enumerated?_texts henum htexts,
    ← any_same_str_iff]
  cases (texts.map Value.str).any (Value.same · (.str t)) with
  | true => simp
  | false =>
    simp only [Bool.false_eq_true, iff_false]
    split <;> nofun

theorem isVerdict_of_checkEnum (henum : spec.enumValues = some (.tuple (texts.map .str)))
    (htexts : texts ≠ []) (hcodes : isInternalCode codes = false)
    (h : checkEnum codes name data spec = .error fault) : fault.IsVerdict := by
  unfold checkEnum at h
  split at h
  · cases h
  next v hv =>
    rw [enumerated?_texts henum htexts] at h
    split at h
    · cases h
    · cases h
      exact ⟨_, _, rfl, isInternalCode_append hcodes rfl⟩
    next herror => cases herror

theorem isVerdict_of_checkEntityEnum
    (henum : spec.enumValues = some (.tuple (texts.map .str))) (htexts : texts ≠ [])
    (hextra : spec.extra.get? "_prefix" = none)
    (h : checkEntityEnum name data spec = .error fault) : fault.IsVerdict := by
  rw [checkEntityEnum, enumerated?_texts henum htexts, hextra] at h
  split at h
  · cases h
  · cases h
    exact ⟨_, _, rfl, isInternalCode_append (by decide) rfl⟩
  next herror => cases herror

end FieldRules.Validation
