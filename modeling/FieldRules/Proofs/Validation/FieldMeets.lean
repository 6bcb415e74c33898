import FieldRules.Proofs.Validation.Internal

namespace FieldRules

/-- Values of a known type. Integers include floats without a fraction; truth values are no
    numbers, and what has attributes counts as an object. -/
inductive BaseType.Has : BaseType → Value → Prop
  | string (s : String) : Has .string (.str s)
  | integer (n : Int) : Has .integer (.int n)
  | whole {x : Binary64} : x.isInteger = true → Has .integer (.float x)
  | number (n : Int) : Has .float (.int n)
  | float (x : Binary64) : Has .float (.float x)
  | boolean (b : Bool) : Has .boolean (.bool b)
  | map (entries : List (String × Value)) : Has .object (.map entries)
  | obj (attributes : List (String × Value)) : Has .object (.obj attributes)
  | list (items : List Value) : Has .array (.list items)
  | tuple (items : List Value) : Has .array (.tuple items)

namespace Validation

inductive OfType : Option DeclaredType → Value → Prop
  | known {b : BaseType} {v : Value} : b.Has v → OfType (some (.known b)) v

inductive Demand (r : Rule) (data : Table Value) : Option Bool → Prop
  | declared : r.requiredWhen = none → Demand r data r.spec.required
  | decided {name : String} {run : Requirement} {v : Value} :
      r.requiredWhen = some (.call name run) → run data = .ok v → Demand r data (some v.truthy)

def MustBePresent (spec : RuleSpec) (required : Option Bool) : Prop :=
  required = some true ∨
    required = none ∧ spec.emptyAllowed = none ∧ spec.requireFilled ≠ none

def MayBeEmpty (spec : RuleSpec) (required : Option Bool) : Prop :=
  spec.emptyAllowed = some true ∨
    spec.emptyAllowed = none ∧ (required ≠ none ∨ spec.requireFilled ≠ some true)

def IsNumeric (r : Rule) : Prop :=
  r.spec.type = some (.known .integer) ∨ r.spec.type = some (.known .float)

def IsArray (r : Rule) : Prop := r.shape = .arrayOfScalars ∨ r.shape = .arrayOfStructs

inductive Between (length size : Value) : Prop
  | intro {low high : Value} : length.elements? = some [low, high] →
      low.atMost? size = some true → size.atMost? high = some true → Between length size

inductive Matches (pattern : Regex) (v : Value) : Prop
  | intro {text : String} : v.written? = .ok text → pattern.search text = .ok true →
      Matches pattern v

inductive Permits (r : Rule) (label name : String) (data : Table Value) : Prop
  | unchecked : r.custom = none → Permits r label name data
  | blank {w : Value} : r.custom = some (.value w) → w.truthy = false → Permits r label name data
  | returns {known : String} {run : Check} : r.custom = some (.call known run) →
      run name data { r.spec with label := some label } = .ok () → Permits r label name data

structure ValueMeets (r : Rule) (label name : String) (data : Table Value) (v : Value) : Prop where
  type : OfType r.spec.type v
  items : IsArray r → ∀ item ∈ v.items?.getD [], OfType r.spec.elementType item
  length : ∀ length, r.spec.length = some length →
    IsNumeric r ∨ r.spec.type = some (.known .string) ∨ IsArray r →
      Between length (measure (r.spec.base?.any BaseType.isNumeric) v)
  pattern : ∀ pattern, r.spec.regex = some pattern →
    IsNumeric r ∨ r.spec.type = some (.known .string) → Matches pattern v
  custom : Permits r label name data

/-- What a rule asks of its field, the parts of the value aside. -/
inductive FieldMeets (r : Rule) (name base : String) (data : Table Value) : Prop
  | absent {required : Option Bool} : Demand r data required → data.get? name = none →
      ¬MustBePresent r.spec required → FieldMeets r name base data
  | empty {required : Option Bool} {v : Value} : Demand r data required →
      data.get? name = some v → v.isEmpty = true → MayBeEmpty r.spec required →
        FieldMeets r name base data
  | filled {required : Option Bool} {v : Value} : Demand r data required →
      data.get? name = some v → v.isEmpty = false →
        ValueMeets r (labelOf base name r.spec) name data v → FieldMeets r name base data

variable {r : Rule} {data : Table Value} {required : Option Bool} {codes label name base : String}
  {v w : Value} {spec : RuleSpec}

theorem hasType_iff {b : BaseType} : hasType b v = true ↔ b.Has v := by
  constructor
  · intro h
    unfold hasType at h
    split at h
    · exact .string _
    · exact .integer _
    · exact .whole h
    · exact .number _
    · exact .float _
    · exact .boolean _
    · exact .map _
    · exact .obj _
    · exact .list _
    · exact .tuple _
    · cases h
  · intro h
    cases h with
    | whole hx => exact hx
    | _ => rfl

theorem checkType_eq_ok_iff {type : Option DeclaredType} :
    checkType codes type v = .ok () ↔ OfType type v := by
  constructor
  · intro h
    obtain ⟨b, hb, htype⟩ := hasType_of_checkType h
    unfold DeclaredType.base? at hb
    split at hb
    · cases hb
      exact .known (hasType_iff.mp htype)
    · cases hb
  · intro h
    cases h with
    | known hhas =>
      rw [checkType, DeclaredType.base?]
      exact if_pos (hasType_iff.mpr hhas)

theorem checkItems_eq_none_iff {type : Option DeclaredType} {items : List Value} (i : Nat) :
    checkItems codes type i items = none ↔ ∀ item ∈ items, OfType type item := by
  induction items generalizing i with
  | nil => simp [checkItems]
  | cons v items ih =>
    have htype : checkType codes type v = .ok () ↔ OfType type v := checkType_eq_ok_iff
    rw [checkItems, List.forall_mem_cons, ← htype]
    split
    next fault hfault => simp [hfault]
    next hok => simp [hok, ih]

theorem required?_eq_ok_iff :
    required? r.spec r.requiredWhen data = .ok required ↔ Demand r data required := by
  constructor
  · intro h
    unfold required? at h
    split at h
    next hnone =>
      cases h
      exact .declared hnone
    next hcall =>
      obtain ⟨v, hv, rfl⟩ := Outcome.map_eq_ok.mp h
      exact .decided hcall hv
    next => cases h
  · intro h
    cases h with
    | declared hnone =>
      unfold required?
      rw [hnone]
    | decided hcall hv =>
      unfold required?
      rw [hcall]
      exact Outcome.map_eq_ok.mpr ⟨_, hv, rfl⟩

theorem presence_of_absent : presence codes spec required none = .ok none ↔
    ¬MustBePresent spec required := by
  unfold presence MustBePresent
  rcases required with _ | _ | _ <;> cases spec.emptyAllowed <;> cases spec.requireFilled <;>
    simp [flag]

theorem presence_of_isEmpty (hv : v.isEmpty = true) :
    presence codes spec required (some v) = .ok none ↔ MayBeEmpty spec required := by
  unfold presence MayBeEmpty
  rcases required with _ | _ | _ <;> rcases spec.emptyAllowed with _ | _ | _ <;>
    rcases spec.requireFilled with _ | _ | _ <;> simp [flag, hv]

theorem presence_eq_some_iff {entry : Option Value} :
    presence codes spec required entry = .ok (some v) ↔ entry = some v ∧ v.isEmpty = false := by
  constructor
  · exact get?_of_presence
  · rintro ⟨rfl, hv⟩
    exact presence_of_not_isEmpty required hv

theorem between_ints_iff {low high size : Int} :
    Between (.tuple [.int low, .int high]) (.int size) ↔ low ≤ size ∧ size ≤ high := by
  have hint : ∀ a b : Int, (Value.int a).atMost? (.int b) = some true ↔ a ≤ b := by
    intro a b
    have hrat : (Value.int a).atMost? (.int b) = some (decide ((a : Rat) ≤ b)) := rfl
    rw [hrat, Option.some.injEq, decide_eq_true_iff, Rat.intCast_le_intCast]
  rw [← hint, ← hint]
  constructor
  · rintro ⟨⟨⟩, hlow, hhigh⟩
    exact ⟨hlow, hhigh⟩
  · rintro ⟨hlow, hhigh⟩
    exact .intro rfl hlow hhigh

theorem checkLength_eq_ok_iff {numeric : Bool} {length : Value} :
    checkLength codes numeric length v = .ok () ↔ Between length (measure numeric v) := by
  have hwithin : ∀ low size high : Value, within? low size high = .ok true ↔
      low.atMost? size = some true ∧ size.atMost? high = some true := by
    intro low size high
    unfold within?
    rcases low.atMost? size with _ | _ | _ <;> rcases size.atMost? high with _ | _ | _ <;> simp
  constructor
  · intro h
    unfold checkLength at h
    split at h
    · cases h
    next low high hbounds =>
      split at h
      · cases h
      next hsize =>
        obtain ⟨hlow, hhigh⟩ := (hwithin _ _ _).mp hsize
        unfold bounds? at hbounds
        split at hbounds
        next helements =>
          cases hbounds
          exact .intro helements hlow hhigh
        · cases hbounds
        · cases hbounds
      · cases h
  · rintro ⟨helements, hlow, hhigh⟩
    simp only [checkLength, bounds?, helements, (hwithin _ _ _).mpr ⟨hlow, hhigh⟩]

theorem checkPattern_eq_ok_iff {pattern : Regex} :
    checkPattern codes pattern v = .ok () ↔ Matches pattern v := by
  constructor
  · intro h
    unfold checkPattern at h
    split at h
    · cases h
    next hwritten =>
      split at h
      next hfound => exact .intro hwritten hfound
      · cases h
      · cases h
      · cases h
  · rintro ⟨hwritten, hfound⟩
    simp only [checkPattern, hwritten, hfound]

theorem checkCustom_call (known : String) (run : Check) :
    checkCustom (some (.call known run)) spec (labelOf base name spec) name data =
      run name data { spec with label := some (labelOf base name spec) } := by
  unfold labelOf
  cases hknown : Text.nonempty? spec.label with
  | none => simp only [checkCustom, hknown, Option.getD_none]
  | some known =>
    have hlabel : spec.label = some known := (Option.filter_eq_some_iff.mp hknown).1
    simp only [checkCustom, hknown, Option.getD_some]
    rw [← hlabel]

theorem checkCustom_eq_ok_iff : checkCustom r.custom r.spec (labelOf base name r.spec) name data =
    .ok () ↔ Permits r (labelOf base name r.spec) name data := by
  constructor
  · intro h
    cases hcustom : r.custom with
    | none => exact .unchecked hcustom
    | some check =>
      rw [hcustom] at h
      cases check with
      | value w =>
        refine .blank hcustom ?_
        simpa [checkCustom] using h
      | call known run =>
        rw [checkCustom_call] at h
        exact .returns hcustom h
  · intro h
    cases h with
    | unchecked hnone => rw [hnone, checkCustom]
    | blank hvalue hfalse => simp [hvalue, checkCustom, hfalse]
    | returns hcall hrun => rwa [hcall, checkCustom_call]

theorem isNumeric_iff : (r.spec.base?.any BaseType.isNumeric) = true ↔ IsNumeric r := by
  unfold IsNumeric RuleSpec.base? DeclaredType.base?
  split
  next b hb => cases b <;> simp [hb, BaseType.isNumeric]
  next hb =>
    simp only [Option.any_none, Bool.false_eq_true, false_iff]
    rintro (h | h) <;> exact hb _ h

theorem isString_iff : (r.spec.base? == some .string) = true ↔
    r.spec.type = some (.known .string) := by
  unfold RuleSpec.base? DeclaredType.base?
  split
  next b hb => simp [hb]
  next hb => simpa using fun h => hb _ h

theorem isArray_iff : (r.shape == .arrayOfScalars || r.shape == .arrayOfStructs) = true ↔
    IsArray r := by
  simp [IsArray]

theorem lengthStep_ok_iff : lengthStep codes r.spec r.shape v = .ok () ↔
    ∀ length, r.spec.length = some length →
      IsNumeric r ∨ r.spec.type = some (.known .string) ∨ IsArray r →
        Between length (measure (r.spec.base?.any BaseType.isNumeric) v) := by
  unfold lengthStep
  cases r.spec.length with
  | none => simp
  | some length =>
    simp only [Option.some.injEq, forall_eq', ← isNumeric_iff, ← isString_iff, ← isArray_iff,
      ← Bool.or_eq_true, ← Bool.or_assoc]
    split
    next hcounts => simp [hcounts, checkLength_eq_ok_iff]
    next hcounts => simp [hcounts]

theorem patternStep_eq_ok_iff : patternStep codes r.spec v = .ok () ↔
    ∀ pattern, r.spec.regex = some pattern →
      IsNumeric r ∨ r.spec.type = some (.known .string) → Matches pattern v := by
  unfold patternStep
  cases r.spec.regex with
  | none => simp
  | some pattern =>
    simp only [Option.some.injEq, forall_eq', ← isNumeric_iff, ← isString_iff, ← Bool.or_eq_true]
    split
    next htextual => simp [htextual, checkPattern_eq_ok_iff]
    next htextual => simp [htextual]

theorem checkValue_eq_ok_iff : checkValue codes r.spec r.shape r.custom
    (labelOf base name r.spec) name data v = .ok () ↔
      ValueMeets r (labelOf base name r.spec) name data v := by
  have hitems : checkItems codes r.spec.elementType 0
      (if r.shape = .arrayOfScalars ∨ r.shape = .arrayOfStructs then v.items?.getD [] else []) =
        none ↔ (IsArray r → ∀ item ∈ v.items?.getD [], OfType r.spec.elementType item) := by
    rw [checkItems_eq_none_iff]
    unfold IsArray
    split
    next harray => simp [harray]
    next harray => simp [harray]
  have hcontent : checkContent codes r.spec r.shape r.custom (labelOf base name r.spec) name data v =
      .ok () ↔ lengthStep codes r.spec r.shape v = .ok () ∧ patternStep codes r.spec v = .ok () ∧
        checkCustom r.custom r.spec (labelOf base name r.spec) name data = .ok () := by
    rw [checkContent_eq, Outcome.then_eq_ok, Outcome.then_eq_ok]
  constructor
  · intro h
    unfold checkValue at h
    split at h
    · cases h
    next htype =>
      dsimp only at h
      split at h
      · cases h
      next hnone =>
        split at h
        · cases h
        next hok =>
          obtain ⟨hlength, hpattern, hcustom⟩ := hcontent.mp hok
          exact ⟨checkType_eq_ok_iff.mp htype, hitems.mp hnone, lengthStep_ok_iff.mp hlength,
            patternStep_eq_ok_iff.mp hpattern, checkCustom_eq_ok_iff.mp hcustom⟩
  · intro h
    have hok := hcontent.mpr ⟨lengthStep_ok_iff.mpr h.length,
      patternStep_eq_ok_iff.mpr h.pattern, checkCustom_eq_ok_iff.mpr h.custom⟩
    simp only [checkValue, checkType_eq_ok_iff.mpr h.type, hitems.mpr h.items, hok]

theorem fieldMeets_of_checkField {o : Option Value} (h : checkField codes r.spec r.shape r.custom
    r.requiredWhen (labelOf base name r.spec) name data = .ok o) :
    FieldMeets r name base data ∧ o = (data.get? name).filter fun v => !v.isEmpty := by
  unfold checkField at h
  split at h
  · cases h
  next required hrequired =>
    have hdemand := required?_eq_ok_iff.mp hrequired
    cases hget : data.get? name with
    | none =>
      rw [hget] at h
      split at h
      · cases h
      next hpresence =>
        cases h
        exact ⟨.absent hdemand hget (presence_of_absent.mp hpresence), rfl⟩
      next hpresence => cases (presence_eq_some_iff.mp hpresence).1
    | some v =>
      rw [hget] at h
      cases hv : v.isEmpty with
      | true =>
        split at h
        · cases h
        next hpresence =>
          cases h
          refine ⟨.empty hdemand hget hv ((presence_of_isEmpty hv).mp hpresence), ?_⟩
          simp [Option.filter, hv]
        next hpresence =>
          obtain ⟨⟨⟩, hw⟩ := presence_eq_some_iff.mp hpresence
          rw [hv] at hw
          cases hw
      | false =>
        rw [presence_of_not_isEmpty required hv] at h
        dsimp only at h
        split at h
        · cases h
        next hvalue =>
          cases h
          refine ⟨.filled hdemand hget hv (checkValue_eq_ok_iff.mp hvalue), ?_⟩
          simp [Option.filter, hv]

theorem checkField_of_fieldMeets (h : FieldMeets r name base data) :
    checkField codes r.spec r.shape r.custom r.requiredWhen (labelOf base name r.spec) name data =
      .ok ((data.get? name).filter fun v => !v.isEmpty) := by
  cases h with
  | absent hdemand hget hnot =>
    simp only [checkField, required?_eq_ok_iff.mpr hdemand, hget, presence_of_absent.mpr hnot,
      Option.filter_none]
  | empty hdemand hget hv hmay =>
    simp only [checkField, required?_eq_ok_iff.mpr hdemand, hget,
      (presence_of_isEmpty hv).mpr hmay]
    simp [Option.filter, hv]
  | filled hdemand hget hv hmeets =>
    simp only [checkField, required?_eq_ok_iff.mpr hdemand, hget,
      presence_of_not_isEmpty _ hv, checkValue_eq_ok_iff.mpr hmeets]
    simp [Option.filter, hv]

theorem checkField_eq_ok_iff {o : Option Value} : checkField codes r.spec r.shape r.custom
    r.requiredWhen (labelOf base name r.spec) name data = .ok o ↔
      FieldMeets r name base data ∧ o = (data.get? name).filter fun v => !v.isEmpty := by
  constructor
  · exact fieldMeets_of_checkField
  · rintro ⟨hmeets, rfl⟩
    exact checkField_of_fieldMeets hmeets

theorem fieldMeets_filled_iff (hget : data.get? name = some v) (hv : v.isEmpty = false) :
    FieldMeets r name base data ↔
      (∃ required, Demand r data required) ∧ ValueMeets r (labelOf base name r.spec) name data v := by
  constructor
  · intro h
    cases h with
    | absent _ hnone => cases hget.symm.trans hnone
    | empty _ hsome hempty =>
      cases hget.symm.trans hsome
      cases hv.symm.trans hempty
    | filled hdemand hsome _ hmeets =>
      cases hget.symm.trans hsome
      exact ⟨⟨_, hdemand⟩, hmeets⟩
  · rintro ⟨⟨required, hdemand⟩, hmeets⟩
    exact .filled hdemand hget hv hmeets

theorem not_fieldMeets_of_type (hget : data.get? name = some v) (hv : v.isEmpty = false)
    (htype : ¬OfType r.spec.type v) : ¬FieldMeets r name base data :=
  fun h => htype ((fieldMeets_filled_iff hget hv).mp h).2.type

structure Undemanding (r : Rule) : Prop where
  required : r.spec.required = none
  requiredWhen : r.requiredWhen = none
  empty : r.spec.emptyAllowed = none

theorem Undemanding.demand_iff (hr : Undemanding r) : Demand r data required ↔ required = none := by
  constructor
  · intro h
    cases h with
    | declared => exact hr.required
    | decided hcall => cases hr.requiredWhen.symm.trans hcall
  · rintro rfl
    have hdeclared : Demand r data r.spec.required := .declared hr.requiredWhen
    rwa [hr.required] at hdeclared

theorem Undemanding.fieldMeets_iff (hr : Undemanding r) : FieldMeets r name base data ↔
    (r.spec.requireFilled ≠ none → data.get? name ≠ none) ∧
      ∀ v, data.get? name = some v →
        (v.isEmpty = true → r.spec.requireFilled ≠ some true) ∧
        (v.isEmpty = false → ValueMeets r (labelOf base name r.spec) name data v) := by
  have hpresent : MustBePresent r.spec none ↔ r.spec.requireFilled ≠ none := by
    simp [MustBePresent, hr.empty]
  have hempty : MayBeEmpty r.spec none ↔ r.spec.requireFilled ≠ some true := by
    simp [MayBeEmpty, hr.empty]
  constructor
  · intro h
    cases h with
    | absent hrequired hget hnot =>
      obtain rfl := hr.demand_iff.mp hrequired
      refine ⟨fun hfilled => absurd (hpresent.mpr hfilled) hnot, ?_⟩
      intro v hv
      cases hget.symm.trans hv
    | empty hrequired hget hv hmay =>
      obtain rfl := hr.demand_iff.mp hrequired
      refine ⟨fun _ => by simp [hget], ?_⟩
      intro w hw
      cases hget.symm.trans hw
      refine ⟨fun _ => hempty.mp hmay, ?_⟩
      intro hfull
      rw [hv] at hfull
      cases hfull
    | filled hrequired hget hv hmeets =>
      refine ⟨fun _ => by simp [hget], ?_⟩
      intro w hw
      cases hget.symm.trans hw
      refine ⟨?_, fun _ => hmeets⟩
      intro hblank
      rw [hv] at hblank
      cases hblank
  · rintro ⟨hfilled, hvalue⟩
    have hnone : Demand r data none := hr.demand_iff.mpr rfl
    cases hget : data.get? name with
    | none =>
      refine .absent hnone hget ?_
      intro hmust
      exact hfilled (hpresent.mp hmust) hget
    | some v =>
      obtain ⟨hblank, hmeets⟩ := hvalue v hget
      cases hv : v.isEmpty with
      | true => exact .empty hnone hget hv (hempty.mpr (hblank hv))
      | false => exact .filled hnone hget hv (hmeets hv)

theorem Undemanding.fieldMeets_iff_of_optional (hr : Undemanding r)
    (hfilled : r.spec.requireFilled = none) : FieldMeets r name base data ↔
      ∀ v, data.get? name = some v →
        v.isEmpty = true ∨ ValueMeets r (labelOf base name r.spec) name data v := by
  rw [hr.fieldMeets_iff, hfilled]
  constructor
  · rintro ⟨-, h⟩ v hv
    cases hempty : v.isEmpty with
    | true => exact .inl rfl
    | false => exact .inr ((h v hv).2 hempty)
  · intro h
    refine ⟨fun hnone => absurd rfl hnone, fun v hv => ⟨fun _ => nofun, fun hfull => ?_⟩⟩
    rcases h v hv with hempty | hmeets
    · cases hfull.symm.trans hempty
    · exact hmeets

theorem Undemanding.fieldMeets_iff_of_filled (hr : Undemanding r)
    (hfilled : r.spec.requireFilled = some true) : FieldMeets r name base data ↔
      ∃ v, data.get? name = some v ∧ v.isEmpty = false ∧
        ValueMeets r (labelOf base name r.spec) name data v := by
  rw [hr.fieldMeets_iff, hfilled]
  constructor
  · rintro ⟨hpresent, h⟩
    obtain ⟨v, hv⟩ := Option.ne_none_iff_exists'.mp (hpresent nofun)
    cases hempty : v.isEmpty with
    | true => exact absurd rfl ((h v hv).1 hempty)
    | false => exact ⟨v, hv, hempty, (h v hv).2 hempty⟩
  · rintro ⟨v, hv, hempty, hmeets⟩
    rw [hv]
    refine ⟨fun _ => nofun, ?_⟩
    rintro w ⟨⟩
    refine ⟨fun hblank => ?_, fun _ => hmeets⟩
    cases hblank.symm.trans hempty

theorem permits_call_iff {known : String} {run : Check} (hr : r.custom = some (.call known run)) :
    Permits r label name data ↔ run name data { r.spec with label := some label } = .ok () := by
  constructor
  · intro h
    cases h with
    | unchecked hnone => cases hr.symm.trans hnone
    | blank hvalue => cases hr.symm.trans hvalue
    | returns hcall hrun =>
      cases hr.symm.trans hcall
      exact hrun
  · exact .returns hr

end Validation

end FieldRules
