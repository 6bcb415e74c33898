import FieldRules.Proofs.Request.Validated
import FieldRules.Proofs.Validation.Conforming

namespace FieldRules.Request

open Errors

variable {limit : Numeral.DigitLimit} {bags : Bags} {rules : RuleMap} {method codes : String}
  {ctx : Context} {data : Table Value}

theorem isInternal_stray (ctx : Context) (path : String) (stray : Stray)
    (params : Table Value) : (FieldError.make ctx path stray.code params).isInternal = false := by
  have hcode : isInternalCode stray.code = false := by cases stray <;> decide
  exact hcode

theorem unknownParameters_eq_nil_iff {source : String} :
    unknownParameters ctx bags rules source = [] ↔ strays bags rules source = [] := by
  unfold unknownParameters
  constructor
  · intro h
    exact List.map_eq_nil_iff.mp (ofList_eq_nil h)
  · intro h
    rw [h]
    rfl

theorem not_internal_of_unknownParameters (ctx : Context) (bags : Bags) (rules : RuleMap)
    (source : String) :
    ((unknownParameters ctx bags rules source).any fun e => e.2.isInternal) = false := by
  rw [List.any_eq_false]
  intro e he
  obtain ⟨⟨path, stray⟩, -, hstray⟩ := List.mem_map.mp (mem_ofList he)
  rw [← hstray, isInternal_stray]
  decide

theorem validated_of_checked (h : extract limit bags rules (defaultSource method) = .ok data)
    (hstrays : strays bags rules (defaultSource method) = []) {errors : Errors}
    (herrors : (Validator.validate { context := ctx, codes } (.map data) (some rules) "").1 =
      .ok errors) :
    validated limit bags rules method ctx codes = errors.raise.map fun () => data := by
  unfold validated
  dsimp only
  rw [h]
  dsimp only
  rw [unknownParameters_eq_nil_iff.mpr hstrays, List.isEmpty_nil, if_pos rfl, herrors]

theorem validated_of_strays (ctx : Context) (codes : String)
    (h : extract limit bags rules (defaultSource method) = .ok data)
    (hstrays : strays bags rules (defaultSource method) ≠ []) :
    ∃ details, validated limit bags rules method ctx codes =
      .error (.rejected (.invalidFields details)) := by
  have hunknown : unknownParameters ctx bags rules (defaultSource method) ≠ [] :=
    fun hnil => hstrays (unknownParameters_eq_nil_iff.mp hnil)
  have hverdicts := not_internal_of_unknownParameters ctx bags rules (defaultSource method)
  unfold validated
  dsimp only
  rw [h]
  dsimp only
  rw [List.isEmpty_eq_false_iff.mpr hunknown, if_neg Bool.false_ne_true]
  dsimp only
  rcases raise_of_not_internal hverdicts with hraise | ⟨details, hraise⟩
  · exact absurd (raise_eq_ok.mp hraise) hunknown
  · exact ⟨details, by rw [hraise]; rfl⟩

theorem strays_of_validated (h : validated limit bags rules method ctx codes = .ok data) :
    strays bags rules (defaultSource method) = [] := by
  refine Classical.byContradiction fun hstrays => ?_
  obtain ⟨details, hrejected⟩ := validated_of_strays ctx codes (validated_eq_ok h).1 hstrays
  rw [hrejected] at h
  cases h

theorem validated_eq_ok_iff : validated limit bags rules method ctx codes = .ok data ↔
    extract limit bags rules (defaultSource method) = .ok data ∧
      strays bags rules (defaultSource method) = [] ∧
        Validation.ofStruct ⟨ctx, codes⟩ rules data "" = ([], none) := by
  constructor
  · intro h
    obtain ⟨hdata, hclean⟩ := validated_eq_ok h
    exact ⟨hdata, strays_of_validated h, hclean⟩
  · rintro ⟨hdata, hstrays, hclean⟩
    have herrors : (Validator.validate { context := ctx, codes } (.map data) (some rules) "").1 =
        .ok [] :=
      (Validator.validate_eq_nil_iff _ rules (.map data) "").mpr hclean
    rw [validated_of_checked hdata hstrays herrors]
    rfl

theorem belowField_of_string {r : Rule} (h : r.spec.base? = some .string) (path : String)
    (v : Value) : belowField path v r = [] := by
  obtain ⟨spec, custom, requiredWhen, callback, nested⟩ := r
  have hmaps : checkedMaps spec path v = [] := by
    have hbase : spec.base? = some .string := h
    unfold checkedMaps
    rw [hbase]
  cases nested with
  | none => rw [belowField]
  | some nested =>
    rw [belowField, hmaps]
    split <;> rfl

def sending (source name : String) (v : Value) : Bags := [(source, [(name, v)])]

theorem mem_bag_sending {bagName source name : String} {v : Value} {e : String × Value} :
    e ∈ bag (sending source name v) bagName ↔ bagName = source ∧ e = (name, v) := by
  unfold bag sending
  rw [Table.get?]
  split
  next h => simp [h]
  next h => simp [Table.get?, Ne.symm h]

theorem strays_sending {r : Rule} {name : String} (hget : Table.get? rules name = some r)
    (hbase : r.spec.base? = some .string) (source : String) (v : Value) :
    strays (sending (sourceOf r.spec source) name v) rules source = [] := by
  unfold strays
  rw [List.flatMap_eq_nil_iff]
  intro bagName _
  rw [List.flatMap_eq_nil_iff]
  intro e he
  obtain ⟨rfl, rfl⟩ := mem_bag_sending.mp he
  simp only [strayOf, hget, ne_eq, not_true_eq_false, if_false]
  exact belowField_of_string hbase name v

end FieldRules.Request
