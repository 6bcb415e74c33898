import FieldRules.Proofs.Validation.Clean

namespace FieldRules

theorem dropMark?_append {mark cs rest : List Char} {c : Char} (hc : c ∉ mark)
    (h : (Text.dropMark? mark (cs ++ c :: rest)).isSome = true) :
    (Text.dropMark? mark cs).isSome = true := by
  induction mark generalizing cs with
  | nil => rfl
  | cons m mark ih =>
    have hm : c ≠ m ∧ c ∉ mark := by simpa using hc
    cases cs with
    | nil => simp [Text.dropMark?, Ne.symm hm.1] at h
    | cons d cs =>
      by_cases hd : m = d
      · simp only [List.cons_append, Text.dropMark?, hd, if_true] at h ⊢
        exact ih hm.2 h
      · simp [Text.dropMark?, hd] at h

theorem isInternalCode_append {codes code : String} (hcodes : isInternalCode codes = false)
    {rest : List Char} (hcode : code.toList = 'v' :: rest) :
    isInternalCode (codes ++ code) = false := by
  cases h : isInternalCode (codes ++ code) with
  | false => rfl
  | true =>
    unfold isInternalCode Text.startsBy at h hcodes
    rw [String.toList_append, hcode] at h
    rw [dropMark?_append (by decide) h] at hcodes
    cases hcodes

theorem isInternalCode_of_toList {code : String} {rest : List Char}
    (hcode : code.toList = 'v' :: rest) : isInternalCode code = false := by
  have h := isInternalCode_append (by decide : isInternalCode "" = false) hcode
  rwa [String.empty_append] at h

def Fault.IsVerdict (fault : Fault) : Prop :=
  ∃ code params, fault = .field code params ∧ isInternalCode code = false

namespace Validation

variable {codes : String}

theorem isInternalCode_prefixed (hcodes : isInternalCode codes = false) {code : String}
    {rest : List Char} (hcode : code.toList = 'v' :: rest) :
    isInternalCode (prefixed codes code) = false := by
  rw [prefixed, if_neg (by simp [isInternalCode_of_toList hcode])]
  exact isInternalCode_append hcodes hcode

theorem isVerdict_prefixed (hcodes : isInternalCode codes = false) {code : String}
    {rest : List Char} (hcode : code.toList = 'v' :: rest) (params : Table Value) :
    (Fault.field (prefixed codes code) params).IsVerdict :=
  ⟨_, _, rfl, isInternalCode_prefixed hcodes hcode⟩

variable {spec : RuleSpec} {shape : Shape} {custom : Option (Hook Check)}
  {requiredWhen : Option (Hook Requirement)} {label name : String} {data : Table Value}
  {v : Value} {fault : Fault}

theorem isVerdict_of_presence (hcodes : isInternalCode codes = false) {required : Option Bool}
    {entry : Option Value} (h : presence codes spec required entry = .error fault) :
    fault.IsVerdict := by
  unfold presence at h
  generalize (if required.isSome || spec.emptyAllowed.isSome then none
    else spec.requireFilled) = filled at h
  dsimp only at h
  split at h
  · split at h
    · cases h
      exact isVerdict_prefixed hcodes rfl []
    · cases h
  · split at h
    · cases h
    · split at h
      · cases h
      · cases h
        exact isVerdict_prefixed hcodes rfl []

theorem isVerdict_of_checkType (hcodes : isInternalCode codes = false)
    {type : Option DeclaredType} {b : BaseType} (hb : DeclaredType.base? type = some b)
    (h : checkType codes type v = .error fault) : fault.IsVerdict := by
  unfold checkType at h
  rw [hb] at h
  dsimp only at h
  split at h
  · cases h
  · cases h
    exact isVerdict_prefixed hcodes rfl _

def WellMeasured (spec : RuleSpec) : Prop :=
  spec.length = none ∨ ∃ low high, spec.length = some (.tuple [low, high]) ∧
    low.amount?.isSome = true ∧ high.amount?.isSome = true

theorem atMost?_of_amounts {a b : Value} (ha : a.amount?.isSome = true)
    (hb : b.amount?.isSome = true) : ∃ r, a.atMost? b = some r := by
  obtain ⟨x, hx⟩ := Option.isSome_iff_exists.mp ha
  obtain ⟨y, hy⟩ := Option.isSome_iff_exists.mp hb
  unfold Value.atMost?
  split
  · exact ⟨_, rfl⟩
  · rw [hx, hy]
    exact ⟨_, rfl⟩

theorem within?_total {low size high : Value} (hlow : low.amount?.isSome = true)
    (hsize : size.amount?.isSome = true) (hhigh : high.amount?.isSome = true) :
    ∃ r, within? low size high = .ok r := by
  obtain ⟨r, hr⟩ := atMost?_of_amounts hlow hsize
  obtain ⟨r', hr'⟩ := atMost?_of_amounts hsize hhigh
  unfold within?
  rw [hr, hr']
  cases r <;> exact ⟨_, rfl⟩

theorem isVerdict_of_checkLength (hcodes : isInternalCode codes = false) {low high : Value}
    (hlow : low.amount?.isSome = true) (hhigh : high.amount?.isSome = true)
    (h : checkLength codes false (.tuple [low, high]) v = .error fault) : fault.IsVerdict := by
  have hsize : (measure false v).amount?.isSome = true := by
    unfold measure
    cases v <;> rfl
  obtain ⟨r, hr⟩ := within?_total hlow hsize hhigh
  unfold checkLength bounds? at h
  simp only [Value.elements?, hr] at h
  cases r with
  | true => cases h
  | false =>
    cases h
    exact isVerdict_prefixed hcodes rfl _

theorem isVerdict_of_lengthStep (hcodes : isInternalCode codes = false)
    (hlength : spec.length = none ∨
      spec.base?.any BaseType.isNumeric = false ∧ WellMeasured spec)
    (h : lengthStep codes spec shape v = .error fault) : fault.IsVerdict := by
  unfold lengthStep at h
  rcases hlength with hnone | ⟨hnumeric, hnone | ⟨low, high, hsome, hlow, hhigh⟩⟩
  · rw [hnone] at h
    cases h
  · rw [hnone] at h
    cases h
  · rw [hsome, hnumeric] at h
    dsimp only at h
    split at h
    · exact isVerdict_of_checkLength hcodes hlow hhigh h
    · cases h

theorem get?_of_presence {required : Option Bool} {entry : Option Value}
    (h : presence codes spec required entry = .ok (some v)) :
    entry = some v ∧ v.isEmpty = false := by
  unfold presence at h
  generalize (if required.isSome || spec.emptyAllowed.isSome then none
    else spec.requireFilled) = filled at h
  dsimp only at h
  split at h
  · split at h <;> cases h
  next w =>
    split at h
    next hw =>
      cases h
      exact ⟨rfl, by simpa using hw⟩
    next =>
      split at h <;> cases h

structure Ordinary (r : Rule) : Prop where
  type : ∃ b, r.spec.type = some (.known b)
  shape : r.shape = .scalar
  length : r.spec.length = none ∨
    r.spec.base?.any BaseType.isNumeric = false ∧ WellMeasured r.spec
  regex : r.spec.regex = none
  required : ∀ data, ∃ b, required? r.spec r.requiredWhen data = .ok b

variable {r : Rule}

theorem Ordinary.patternStep (hr : Ordinary r) : patternStep codes r.spec v = .ok () := by
  rw [Validation.patternStep, hr.regex]

structure Reaches (codes : String) (r : Rule) (name : String) (data : Table Value) (v : Value) :
    Prop where
  get : data.get? name = some v
  notEmpty : v.isEmpty = false
  type : checkType codes r.spec.type v = .ok ()
  length : lengthStep codes r.spec r.shape v = .ok ()

theorem Ordinary.checkValue (hr : Ordinary r) (htype : checkType codes r.spec.type v = .ok ()) :
    checkValue codes r.spec r.shape r.custom label name data v =
      match lengthStep codes r.spec r.shape v with
      | .error fault => .error ⟨"", fault⟩
      | .ok () => match checkCustom r.custom r.spec label name data with
        | .error fault => .error ⟨"", fault⟩
        | .ok () => .ok () := by
  unfold Validation.checkValue
  rw [htype, hr.shape, checkContent_eq, hr.patternStep]
  cases lengthStep codes r.spec .scalar v with
  | error fault => rfl
  | ok u =>
    simp only [Except.bind]
    cases checkCustom r.custom r.spec label name data with
    | error fault => rfl
    | ok u => rfl

theorem Ordinary.checkField_of_reaches (hr : Ordinary r) (hv : Reaches codes r name data v)
    (hcustom : checkCustom r.custom r.spec label name data = .error fault) :
    checkField codes r.spec r.shape r.custom r.requiredWhen label name data =
      .error ⟨"", fault⟩ := by
  obtain ⟨b, hb⟩ := hr.required data
  unfold checkField
  rw [hb, hv.get]
  dsimp only
  rw [presence_of_not_isEmpty b hv.notEmpty]
  dsimp only
  rw [hr.checkValue hv.type, hv.length, hcustom]

theorem Ordinary.checkField_cases (hr : Ordinary r) (hcodes : isInternalCode codes = false)
    (label name : String) (data : Table Value) :
    (∃ o, checkField codes r.spec r.shape r.custom r.requiredWhen label name data = .ok o) ∨
      (∃ fault, checkField codes r.spec r.shape r.custom r.requiredWhen label name data =
        .error ⟨"", fault⟩ ∧ fault.IsVerdict) ∨
      ∃ v fault, Reaches codes r name data v ∧
        checkCustom r.custom r.spec label name data = .error fault := by
  obtain ⟨required, hrequired⟩ := hr.required data
  obtain ⟨b, hb⟩ := hr.type
  unfold checkField
  rw [hrequired]
  dsimp only
  cases hpresence : presence codes r.spec required (data.get? name) with
  | error fault => exact .inr (.inl ⟨fault, rfl, isVerdict_of_presence hcodes hpresence⟩)
  | ok entry =>
    cases entry with
    | none => exact .inl ⟨none, rfl⟩
    | some v =>
      dsimp only
      obtain ⟨hget, hempty⟩ := get?_of_presence hpresence
      cases htype : checkType codes r.spec.type v with
      | error fault =>
        have hbase : DeclaredType.base? r.spec.type = some b := by rw [hb]; rfl
        refine .inr (.inl ⟨fault, ?_, isVerdict_of_checkType hcodes hbase htype⟩)
        rw [Validation.checkValue, htype]
      | ok u =>
        rw [hr.checkValue htype]
        cases hlength : lengthStep codes r.spec r.shape v with
        | error fault =>
          exact .inr (.inl ⟨fault, rfl, isVerdict_of_lengthStep hcodes hr.length hlength⟩)
        | ok u =>
          cases hcustom : checkCustom r.custom r.spec label name data with
          | error fault => exact .inr (.inr ⟨v, fault, ⟨hget, hempty, htype, hlength⟩, rfl⟩)
          | ok u => exact .inl ⟨some v, rfl⟩

end Validation

end FieldRules
