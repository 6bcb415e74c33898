import FieldRules.Proofs.Validation.Conforming

namespace FieldRules

namespace Validation

/-- A rule whose checks, its own included, only ever find fault with the value. -/
structure Fitting (r : Rule) : Prop where
  type : ∃ b, r.spec.type = some (.known b)
  shape : r.shape = .scalar
  length : r.spec.length = none ∨
    r.spec.base?.any BaseType.isNumeric = false ∧ WellMeasured r.spec
  pattern : ∀ pattern, r.spec.regex = some pattern → r.spec.type = some (.known .string) ∧
    ∀ text, ∃ b, pattern.search text = .ok b
  required : ∀ data, ∃ b, required? r.spec r.requiredWhen data = .ok b
  custom : ∀ label name data fault, checkCustom r.custom r.spec label name data = .error fault →
    fault.IsVerdict

structure Alone (r : Rule) : Prop where
  group : r.spec.choiceGroup = none
  nested : r.nested = none

structure Plain (r : Rule) (b : BaseType) : Prop extends Undemanding r, Alone r where
  type : r.spec.type = some (.known b)
  shape : r.shape = .scalar
  length : r.spec.length = none
  pattern : r.spec.regex = none

variable {codes label name base : String} {data : Table Value} {v : Value} {r : Rule}
  {fault : Fault} {stop : Stop} {s : Setting} {rules : RuleMap} {c : Choices} {parent : String}

namespace Plain

variable {b : BaseType}

theorem base? (hr : Plain r b) : r.spec.base? = some b := by
  rw [RuleSpec.base?, hr.type]
  rfl

theorem fitting (hr : Plain r b) (hcustom : ∀ label name data fault,
    checkCustom r.custom r.spec label name data = .error fault → fault.IsVerdict) : Fitting r where
  type := ⟨b, hr.type⟩
  shape := hr.shape
  length := .inl hr.length
  pattern pattern h := by cases hr.pattern.symm.trans h
  required _ := ⟨r.spec.required, by rw [hr.requiredWhen]; rfl⟩
  custom := hcustom

theorem fitting_of_unchecked (hr : Plain r b) (hcustom : r.custom = none) : Fitting r := by
  refine hr.fitting fun _ _ _ _ h => ?_
  rw [hcustom] at h
  cases h

theorem valueMeets_iff (hr : Plain r b) :
    ValueMeets r label name data v ↔ b.Has v ∧ Permits r label name data := by
  constructor
  · intro h
    have htype := h.type
    rw [hr.type] at htype
    cases htype with
    | known hhas => exact ⟨hhas, h.custom⟩
  · rintro ⟨hhas, hpermits⟩
    refine ⟨hr.type ▸ .known hhas, ?_, ?_, ?_, hpermits⟩
    · rintro (harray | harray) <;> cases hr.shape.symm.trans harray
    · intro length hlength
      cases hr.length.symm.trans hlength
    · intro pattern hpattern
      cases hr.pattern.symm.trans hpattern

end Plain

theorem Fitting.isVerdict_of_patternStep (hr : Fitting r) (hcodes : isInternalCode codes = false)
    (htype : OfType r.spec.type v) (h : patternStep codes r.spec v = .error fault) :
    fault.IsVerdict := by
  unfold patternStep at h
  split at h
  next pattern hpattern =>
    obtain ⟨hstring, hsearch⟩ := hr.pattern pattern hpattern
    rw [hstring] at htype
    obtain ⟨⟨s⟩⟩ := htype
    obtain ⟨found, hfound⟩ := hsearch s
    split at h
    · have hwritten : (Value.str s).written? = .ok s := rfl
      simp only [checkPattern, hwritten, hfound] at h
      cases found with
      | true => cases h
      | false =>
        cases h
        exact isVerdict_prefixed hcodes rfl _
    · cases h
  · cases h

theorem Fitting.isVerdict_of_checkContent (hr : Fitting r) (hcodes : isInternalCode codes = false)
    (htype : OfType r.spec.type v)
    (h : checkContent codes r.spec r.shape r.custom label name data v = .error fault) :
    fault.IsVerdict := by
  rw [checkContent_eq, Outcome.bind_eq_error] at h
  rcases h with hlength | ⟨-, -, h⟩
  · exact isVerdict_of_lengthStep hcodes hr.length hlength
  · rcases Outcome.bind_eq_error.mp h with hpattern | ⟨-, -, hcustom⟩
    · exact hr.isVerdict_of_patternStep hcodes htype hpattern
    · exact hr.custom _ _ _ _ hcustom

theorem Fitting.isVerdict_of_checkValue (hr : Fitting r) (hcodes : isInternalCode codes = false)
    (h : checkValue codes r.spec r.shape r.custom label name data v = .error stop) :
    stop.suffix = "" ∧ stop.fault.IsVerdict := by
  obtain ⟨b, hb⟩ := hr.type
  unfold checkValue at h
  split at h
  next hfault =>
    cases h
    exact ⟨rfl, isVerdict_of_checkType hcodes (by rw [hb]; rfl) hfault⟩
  next htype =>
    rw [hr.shape] at h
    dsimp only at h
    split at h
    next hstop => simp [checkItems] at hstop
    next =>
      split at h
      next hfault =>
        cases h
        rw [← hr.shape] at hfault
        exact ⟨rfl, hr.isVerdict_of_checkContent hcodes (checkType_eq_ok_iff.mp htype) hfault⟩
      · cases h

theorem Fitting.isVerdict_of_checkField (hr : Fitting r) (hcodes : isInternalCode codes = false)
    (h : checkField codes r.spec r.shape r.custom r.requiredWhen label name data = .error stop) :
    stop.suffix = "" ∧ stop.fault.IsVerdict := by
  obtain ⟨required, hrequired⟩ := hr.required data
  unfold checkField at h
  rw [hrequired] at h
  dsimp only at h
  split at h
  next hfault =>
    cases h
    exact ⟨rfl, isVerdict_of_presence hcodes hfault⟩
  · cases h
  · split at h
    next hstop =>
      cases h
      exact hr.isVerdict_of_checkValue hcodes hstop
    · cases h

theorem Fitting.not_internal_of_ofField (hr : Fitting r) (hcodes : isInternalCode s.codes = false) :
    ∀ e ∈ ofField s name data base r, e.isInternal = false := by
  rw [ofField_of_scalar hr.shape]
  split
  next stop hstop =>
    obtain ⟨hsuffix, hverdict⟩ := hr.isVerdict_of_checkField hcodes hstop
    intro e he
    rw [List.mem_singleton.mp he, hsuffix]
    exact isInternal_errorOf_of_isVerdict hverdict _
  next => simp

theorem not_internal_of_ofFields (hrules : ∀ e ∈ rules, Fitting e.2)
    (hcodes : isInternalCode s.codes = false) :
    ∀ e ∈ ofFields s c data base rules, e.isInternal = false := by
  induction rules with
  | nil => simp [ofFields]
  | cons e rules ih =>
    obtain ⟨name, r⟩ := e
    have hr : Fitting r := hrules (name, r) List.mem_cons_self
    have hrest := ih fun e he => hrules e (List.mem_cons_of_mem _ he)
    rw [ofFields]
    intro e he
    rcases List.mem_append.mp he with he | he
    · split at he
      · exact hr.not_internal_of_ofField hcodes e he
      · cases he
    · exact hrest e he

theorem Alone.namedGroups (hrules : ∀ e ∈ rules, Alone e.2) : NamedGroups rules := by
  refine .intro ?_ ?_
  · intro e he g hg
    cases (hrules e he).group.symm.trans hg
  · intro e he
    rw [Rule.nestedRules, (hrules e he).nested]
    exact .intro (by simp) (by simp)

theorem not_internal_of_ofStruct (hrules : ∀ e ∈ rules, Fitting e.2 ∧ Alone e.2)
    (hcodes : isInternalCode s.codes = false) :
    ∀ e ∈ (ofStruct s rules data parent).1, e.isInternal = false := by
  have hnamed : ∀ e ∈ rules, NamedGroup e.2.spec := by
    intro e he g hg
    cases (hrules e he).2.group.symm.trans hg
  obtain ⟨lead, c, heq, hlead, -⟩ := ofStruct_eq hcodes hnamed data parent
  rw [heq]
  intro e he
  rcases List.mem_append.mp he with he | he
  · exact hlead e he
  · exact not_internal_of_ofFields (fun e he => (hrules e he).1) hcodes e he

theorem conforms_iff_of_alone (hrules : ∀ e ∈ rules, Fitting e.2 ∧ Alone e.2) :
    Conforms rules data parent ↔ ∀ e ∈ rules, FieldMeets e.2 e.1 (baseOf parent) data := by
  have hungrouped : ∀ e ∈ specs rules, e.2.choiceGroup = none := by
    intro f hf
    obtain ⟨e, he, rfl⟩ := List.mem_map.mp hf
    exact (hrules e he).2.group
  have htakes : ∀ e ∈ rules, TakesPart data.has (specs rules) e.2.spec := by
    intro e he g hg
    cases (hrules e he).2.group.symm.trans hg
  constructor
  · rintro ⟨-, hfields, -⟩ e he
    exact hfields e he (htakes e he)
  · intro hfields
    refine .struct ⟨?_, ?_⟩ (fun e he _ => hfields e he) ?_
    · intro e he _ g hg
      cases (hungrouped e he).symm.trans hg
    · intro groupId g hdeclares
      exfalso
      clear hfields htakes
      generalize specs rules = declared at hungrouped hdeclares
      induction hdeclares with
      | here hg => cases (hungrouped _ List.mem_cons_self).symm.trans hg
      | later _ _ ih => exact ih fun e he => hungrouped e (List.mem_cons_of_mem _ he)
    · intro e he _ v _ _ inner path hpart
      cases hpart with
      | struct hshape => cases (hrules e he).1.shape.symm.trans hshape
      | item hshape => cases (hrules e he).1.shape.symm.trans hshape

end Validation

open Validation

theorem Validator.errors_of_fitting (v : Validator) (hcodes : isInternalCode v.codes = false)
    {rules : RuleMap} (hrules : ∀ e ∈ rules, Fitting e.2 ∧ Alone e.2) (data : Value) :
    ∃ errors, (v.validate data (some rules) "").1 = .ok errors ∧
      (errors = [] ↔ ∀ e ∈ rules, FieldMeets e.2 e.1 "" data.fields) ∧
      (errors.any fun e => e.2.isInternal) = false := by
  have hnamed : NamedGroups rules := Alone.namedGroups fun e he => (hrules e he).2
  have hstopped := ofStruct_total hnamed v.setting data.fields ""
  refine ⟨Errors.ofList (ofStruct v.setting rules data.fields "").1, ?_, ?_, ?_⟩
  · simp only [validate, partsOf_eq_fields, hstopped]
  · have hconforms : (ofStruct v.setting rules data.fields "" = ([], none)) ↔
        ∀ e ∈ rules, FieldMeets e.2 e.1 "" data.fields :=
      (clean_iff_conforms hnamed data.fields "").trans (conforms_iff_of_alone hrules)
    rw [← hconforms, Prod.ext_iff, hstopped]
    constructor
    · exact fun hnil => ⟨Errors.ofList_eq_nil hnil, rfl⟩
    · rintro ⟨hnil, -⟩
      rw [hnil]
      rfl
  · rw [List.any_eq_false]
    intro e he
    have hcodes' : isInternalCode v.setting.codes = false := hcodes
    rw [not_internal_of_ofStruct hrules hcodes' e.2 (Errors.mem_ofList he)]
    decide

end FieldRules
