import FieldRules.Proofs.Validation.Kept
import FieldRules.Rule.Declare

namespace FieldRules

def Fault.blamesRules : Fault → Bool
  | .field code _ => isInternalCode code
  | fault => !fault.isBadValue

namespace Validation

inductive Flaw where
  | requirement
  | type
  | element
  | length (length size : Value)
  | pattern (fault : Fault)
  | custom

namespace Flaw

def suffix : Flaw → String
  | element => indexed 0
  | _ => ""

/-- A length, or a fault of a pattern, that is taken for a mistake in the value. -/
inductive Mistaken : Flaw → Prop
  | count {length size : Value} {elements : List Value} : length.elements? = some elements →
      elements.length ≠ 2 → Mistaken (.length length size)
  | low {length size low high : Value} : length.elements? = some [low, high] →
      low.atMost? size = some false → Mistaken (.length length size)
  | search {fault : Fault} : fault.blamesRules = false → Mistaken (.pattern fault)

end Flaw

inductive Measures (length size : Value) : Prop
  | intro {low high : Value} {lower upper : Bool} : length.elements? = some [low, high] →
      low.atMost? size = some lower → size.atMost? high = some upper → Measures length size

structure Sent (r : Rule) (name : String) (data : Table Value) (v : Value) : Prop where
  demand : ∃ required, Demand r data required
  get : data.get? name = some v
  filled : v.isEmpty = false

structure Typed (r : Rule) (v : Value) : Prop where
  type : OfType r.spec.type v
  items : IsArray r → ∀ item ∈ v.items?.getD [], OfType r.spec.elementType item

def Bounded (r : Rule) : Prop := IsNumeric r ∨ r.spec.type = some (.known .string) ∨ IsArray r

def Textual (r : Rule) : Prop := IsNumeric r ∨ r.spec.type = some (.known .string)

def sizeOf (r : Rule) (v : Value) : Value := measure (r.spec.base?.any BaseType.isNumeric) v

def FitsLength (r : Rule) (v : Value) : Prop :=
  ∀ length, r.spec.length = some length → Bounded r → Between length (sizeOf r v)

def FitsPattern (r : Rule) (v : Value) : Prop :=
  ∀ pattern, r.spec.regex = some pattern → Textual r → Matches pattern v

/-- The checks of a field come upon a flaw of its rule, nothing before it being wrong. -/
inductive Flawed (r : Rule) (name : String) (data : Table Value) : Flaw → Prop
  | requirement {w : Value} : r.requiredWhen = some (.value w) → Flawed r name data .requirement
  | type {v : Value} : Sent r name data v → DeclaredType.base? r.spec.type = none →
      Flawed r name data .type
  | element {v : Value} : Sent r name data v → OfType r.spec.type v → IsArray r →
      DeclaredType.base? r.spec.elementType = none → Flawed r name data .element
  | length {v length : Value} : Sent r name data v → Typed r v → r.spec.length = some length →
      Bounded r → ¬Measures length (sizeOf r v) → Flawed r name data (.length length (sizeOf r v))
  | pattern {v : Value} {pattern : Regex} {text : String} {fault : Fault} : Sent r name data v →
      Typed r v → FitsLength r v → r.spec.regex = some pattern → Textual r →
        v.written? = .ok text → pattern.search text = .error fault →
          Flawed r name data (.pattern fault)
  | custom {v w : Value} : Sent r name data v → Typed r v → FitsLength r v → FitsPattern r v →
      r.custom = some (.value w) → w.truthy = true → Flawed r name data .custom

structure Blamed (v : Validator) (whole t : Struct) (e : String × Rule) (flaw : Flaw)
    (errors : Errors) (err : FieldError) : Prop where
  only : t.fieldErrors v.setting e = [err]
  path : err.path = t.base ++ e.1 ++ flaw.suffix
  written : err ∈ whole.errors v.setting
  kept : WellNamed whole.rules → errors.get? err.path = some err
  internal : err.isInternal = true ↔ ¬flaw.Mistaken
  raised : ¬flaw.Mistaken → errors.get? err.path = some err →
    ∃ details, errors.raise = .error (.misdeclared (.invalidRules details))

variable {s : Setting} {codes label name path suffix : String} {r : Rule} {data : Table Value}
  {v length : Value} {fault : Fault} {flaw : Flaw}

theorem isInternal_errorOf (hcodes : isInternalCode s.codes = false) :
    (s.errorOf path label suffix fault).isInternal = fault.blamesRules := by
  have hvalue : isInternalCode (s.code "validator.invalid_format") = false :=
    isInternalCode_prefixed hcodes rfl
  have hrules : isInternalCode "internal.unknown_internal_error" = true := by decide
  cases fault with
  | field => rfl
  | badValue => exact hvalue
  | tooManyDigits => exact hvalue
  | unsupportedConnective => exact hvalue
  | _ => exact hrules

theorem checkField_of_requirement {w : Value} (h : r.requiredWhen = some (.value w)) :
    checkField codes r.spec r.shape r.custom r.requiredWhen label name data =
      .error ⟨"", .wrongKind⟩ := by
  simp only [checkField, required?, h]

theorem checkField_of_sent (h : Sent r name data v) {stop : Stop}
    (hvalue : checkValue codes r.spec r.shape r.custom label name data v = .error stop) :
    checkField codes r.spec r.shape r.custom r.requiredWhen label name data = .error stop := by
  obtain ⟨⟨required, hdemand⟩, hget, hfilled⟩ := h
  simp only [checkField, required?_eq_ok_iff.mpr hdemand, hget,
    presence_of_not_isEmpty required hfilled, hvalue]

theorem checkValue_of_type (htype : DeclaredType.base? r.spec.type = none) :
    checkValue codes r.spec r.shape r.custom label name data v =
      .error ⟨"", .field "internal.validator.unsupported_type"
        [("type", .str (DeclaredType.label r.spec.type))]⟩ := by
  simp only [checkValue, checkType, htype]

theorem base?_of_isArray (h : IsArray r) : r.spec.base? = some .array := by
  have hshape : Rule.shapeOf r.spec r.hasNested = .arrayOfScalars ∨
      Rule.shapeOf r.spec r.hasNested = .arrayOfStructs := h
  unfold Rule.shapeOf at hshape
  split at hshape
  next hbase _ => exact hbase
  · split at hshape <;> simp at hshape
  · simp at hshape

theorem exists_item (hfilled : v.isEmpty = false) (htype : OfType r.spec.type v)
    (harray : IsArray r) : ∃ item items, v.items? = some (item :: items) := by
  have hbase := base?_of_isArray harray
  unfold RuleSpec.base? at hbase
  generalize r.spec.type = type at htype hbase
  cases htype with
  | known hhas =>
    cases hbase
    cases hhas with
    | list items =>
      cases items with
      | nil => cases hfilled
      | cons item items => exact ⟨item, items, rfl⟩
    | tuple items =>
      cases items with
      | nil => cases hfilled
      | cons item items => exact ⟨item, items, rfl⟩

theorem checkValue_of_element (hfilled : v.isEmpty = false) (htype : OfType r.spec.type v)
    (harray : IsArray r) (helement : DeclaredType.base? r.spec.elementType = none) :
    checkValue codes r.spec r.shape r.custom label name data v =
      .error ⟨indexed 0, .field "internal.validator.unsupported_type"
        [("type", .str (DeclaredType.label r.spec.elementType))]⟩ := by
  obtain ⟨item, items, hitems⟩ := exists_item hfilled htype harray
  have harray : r.shape = .arrayOfScalars ∨ r.shape = .arrayOfStructs := harray
  have htype : checkType codes r.spec.type v = .ok () := checkType_eq_ok_iff.mpr htype
  have hitem : checkType codes r.spec.elementType item =
      .error (.field "internal.validator.unsupported_type"
        [("type", .str (DeclaredType.label r.spec.elementType))]) := by
    rw [checkType, helement]
  simp only [checkValue, htype, harray, if_true, hitems, Option.getD_some, checkItems, hitem]

theorem checkValue_of_typed (h : Typed r v)
    (hcontent : checkContent codes r.spec r.shape r.custom label name data v = .error fault) :
    checkValue codes r.spec r.shape r.custom label name data v = .error ⟨"", fault⟩ := by
  have htype : checkType codes r.spec.type v = .ok () := checkType_eq_ok_iff.mpr h.type
  have hitems : checkItems codes r.spec.elementType 0
      (if r.shape = .arrayOfScalars ∨ r.shape = .arrayOfStructs then v.items?.getD [] else []) =
        none := by
    rw [checkItems_eq_none_iff]
    split
    next harray => exact h.items harray
    next => simp
  simp only [checkValue, htype, hitems, hcontent]

theorem lengthStep_of_bounded (hlength : r.spec.length = some length) (hbounded : Bounded r) :
    lengthStep codes r.spec r.shape v =
      checkLength codes (r.spec.base?.any BaseType.isNumeric) length v := by
  have hcounts : (r.spec.base?.any BaseType.isNumeric || r.spec.base? == some .string ||
      (r.shape == .arrayOfScalars || r.shape == .arrayOfStructs)) = true := by
    rwa [Bool.or_assoc, Bool.or_eq_true, Bool.or_eq_true, isNumeric_iff, isString_iff, isArray_iff]
  simp only [lengthStep, hlength, hcounts, if_true]

theorem patternStep_of_textual {pattern : Regex} (hregex : r.spec.regex = some pattern)
    (htextual : Textual r) : patternStep codes r.spec v = checkPattern codes pattern v := by
  have hcounts : (r.spec.base?.any BaseType.isNumeric || r.spec.base? == some .string) = true := by
    rwa [Bool.or_eq_true, isNumeric_iff, isString_iff]
  simp only [patternStep, hregex, hcounts, if_true]

theorem bounds?_of_count {elements : List Value} (helements : length.elements? = some elements)
    (hcount : elements.length ≠ 2) : bounds? length = .error (.badValue none) := by
  unfold bounds?
  rw [helements]
  split
  next hpair =>
    obtain rfl := Option.some.inj hpair
    exact absurd rfl hcount
  · rfl
  next hnone => cases hnone

theorem checkLength_of_not_measures (hcodes : isInternalCode codes = false) {numeric : Bool}
    (h : ¬Measures length (measure numeric v)) :
    ∃ fault, checkLength codes numeric length v = .error fault ∧
      (fault.blamesRules = true ↔ ¬(Flaw.length length (measure numeric v)).Mistaken) := by
  cases helements : length.elements? with
  | none =>
    refine ⟨.wrongKind, by simp only [checkLength, bounds?, helements], fun _ hmistaken => ?_,
      fun _ => rfl⟩
    cases hmistaken with
    | count hsome => cases helements.symm.trans hsome
    | low hsome => cases helements.symm.trans hsome
  | some elements =>
    by_cases hcount : elements.length = 2
    · obtain ⟨low, high, rfl⟩ := List.length_eq_two.mp hcount
      have hmistaken : (Flaw.length length (measure numeric v)).Mistaken ↔
          low.atMost? (measure numeric v) = some false := by
        constructor
        · intro hmistaken
          cases hmistaken with
          | count hsome hne =>
            cases helements.symm.trans hsome
            exact absurd rfl hne
          | low hsome hlow =>
            cases helements.symm.trans hsome
            exact hlow
        · exact .low helements
      rw [hmistaken]
      cases hlow : low.atMost? (measure numeric v) with
      | none =>
        exact ⟨.wrongKind, by simp only [checkLength, bounds?, helements, within?, hlow],
          fun _ hfalse => (by cases hfalse), fun _ => rfl⟩
      | some lower =>
        cases lower with
        | false =>
          have hcode : isInternalCode (prefixed codes (if numeric then
              "validator.invalid_numeric_length" else "validator.invalid_string_length")) =
                false := by
            cases numeric
            · exact isInternalCode_prefixed hcodes rfl
            · exact isInternalCode_prefixed hcodes rfl
          refine ⟨.field _ [("min", low), ("max", high)],
            by simp only [checkLength, bounds?, helements, within?, hlow]; rfl, fun hblames => ?_,
            fun hno => absurd rfl hno⟩
          cases hcode.symm.trans hblames
        | true =>
          cases hhigh : (measure numeric v).atMost? high with
          | none =>
            exact ⟨.wrongKind, by simp only [checkLength, bounds?, helements, within?, hlow, hhigh],
              fun _ hfalse => (by cases hfalse), fun _ => rfl⟩
          | some upper => exact absurd (.intro helements hlow hhigh) h
    · refine ⟨.badValue none, by simp only [checkLength, bounds?_of_count helements hcount],
        fun hblames => (by cases hblames), fun hno => absurd (.count helements hcount) hno⟩

theorem checkPattern_of_fault {pattern : Regex} {text : String} (hwritten : v.written? = .ok text)
    (hsearch : pattern.search text = .error fault) :
    ∃ reported, checkPattern codes pattern v = .error reported ∧
      reported.blamesRules = fault.blamesRules := by
  have hinternal : isInternalCode "internal.validator.invalid_regex" = true := by decide
  simp only [checkPattern, hwritten, hsearch]
  cases fault with
  | brokenPattern => exact ⟨_, rfl, hinternal⟩
  | _ => exact ⟨_, rfl, rfl⟩

theorem blamesRules_iff_not_mistaken :
    fault.blamesRules = true ↔ ¬(Flaw.pattern fault).Mistaken := by
  rw [← Bool.not_eq_false]
  refine not_congr ⟨.search, ?_⟩
  rintro ⟨⟩
  assumption

-- Contradicting flags are no mistake of the pattern's syntax but a bad value.
example : (Regex.ofText "(?a)(?u)x").search "x" = .error (.badValue none) := by
  rfl

theorem Flawed.checkField (hcodes : isInternalCode codes = false) {name : String}
    (h : Flawed r name data flaw) (label : String) : ∃ fault,
      checkField codes r.spec r.shape r.custom r.requiredWhen label name data =
        .error ⟨flaw.suffix, fault⟩ ∧ (fault.blamesRules = true ↔ ¬flaw.Mistaken) := by
  have hunsupported : isInternalCode "internal.validator.unsupported_type" = true := by decide
  cases h with
  | requirement hvalue =>
    exact ⟨.wrongKind, checkField_of_requirement hvalue, fun _ => nofun, fun _ => rfl⟩
  | type hsent htype =>
    exact ⟨_, checkField_of_sent hsent (checkValue_of_type htype), fun _ => nofun,
      fun _ => hunsupported⟩
  | element hsent htype harray helement =>
    exact ⟨_, checkField_of_sent hsent (checkValue_of_element hsent.filled htype harray helement),
      fun _ => nofun, fun _ => hunsupported⟩
  | @length v length hsent htyped hlength hbounded hmeasures =>
    obtain ⟨fault, hfault, hblames⟩ := checkLength_of_not_measures hcodes hmeasures
    refine ⟨fault, checkField_of_sent hsent (checkValue_of_typed htyped ?_), hblames⟩
    rw [checkContent_eq, lengthStep_of_bounded hlength hbounded, hfault]
    rfl
  | @pattern v pattern text fault hsent htyped hfits hregex htextual hwritten hsearch =>
    obtain ⟨reported, hreported, hblames⟩ := checkPattern_of_fault hwritten hsearch
    refine ⟨reported, checkField_of_sent hsent (checkValue_of_typed htyped ?_),
      hblames ▸ blamesRules_iff_not_mistaken⟩
    rw [checkContent_eq, lengthStep_ok_iff.mpr hfits, patternStep_of_textual hregex htextual,
      hreported]
    rfl
  | @custom v w hsent htyped hfits hmatches hcustom htruthy =>
    have hinternal : isInternalCode "internal.validator.non_callable_custom" = true := by decide
    refine ⟨.field "internal.validator.non_callable_custom" [],
      checkField_of_sent hsent (checkValue_of_typed htyped ?_), fun _ => nofun, fun _ => hinternal⟩
    rw [checkContent_eq, lengthStep_ok_iff.mpr hfits, patternStep_eq_ok_iff.mpr hmatches, hcustom]
    simp only [checkCustom, htruthy, if_true]
    rfl

end Validation

open Validation

/-- A field of a struct that the validation comes to has one error for a flaw of its rule, which is
    internal, and fails the request as a mistake in the rules, unless the flaw is in a length or a
    pattern and mistaken for one of the value. -/
theorem Validator.flaw_blamed (v : Validator) (hcodes : isInternalCode v.codes = false)
    (rules : RuleMap) (data : Value) (parent : String) {sites : List Site} {t : Struct}
    {e : String × Rule} {flaw : Flaw}
    (hvisits : Visits v.setting ⟨rules, partsOf data, parent⟩ sites t) (he : e ∈ t.rules)
    (hadmits : t.Admits e.2.spec) (hflaw : Flawed e.2 e.1 t.data flaw) :
    ∃ errors err, (v.validate data (some rules) parent).1 = .ok errors ∧
      Blamed v ⟨rules, partsOf data, parent⟩ t e flaw errors err := by
  have hcodes : isInternalCode v.setting.codes = false := hcodes
  obtain ⟨fault, hfault, hblames⟩ := hflaw.checkField hcodes (labelOf t.base e.1 e.2.spec)
  have honly := Struct.fieldErrors_of_error (s := v.setting) hfault
  have hinternal : ∀ label, (v.setting.errorOf (t.base ++ e.1) label flaw.suffix
      fault).isInternal = true ↔ ¬flaw.Mistaken := by
    intro label
    rw [isInternal_errorOf hcodes, hblames]
  have hsettled : ∃ c, t.settled? = some c := by
    obtain ⟨c, hc, -⟩ := hadmits
    exact ⟨c, hc⟩
  have hwritten : v.setting.errorOf (t.base ++ e.1) (labelOf t.base e.1 e.2.spec) flaw.suffix
      fault ∈ (Struct.mk rules (partsOf data) parent).errors v.setting := by
    refine (hvisits.errors_contained hsettled).subset ((Struct.fieldErrors_contained he
      hadmits).subset ?_)
    rw [honly]
    exact List.mem_singleton.mpr rfl
  rw [partsOf_eq_fields] at hvisits hwritten ⊢
  refine ⟨_, _, v.validate_of_settled (hvisits.settled hsettled), honly,
    path_errorOf_suffix _ _ _ _ _, hwritten, ?_, hinternal _, ?_⟩
  · intro hnamed
    have hall := keepsAll_of_wellNamed (t := ⟨rules, data.fields, parent⟩) v.setting hnamed
    refine hall.kept _ ?_
    rwa [hall.written, ← mem_errors_iff_failsAt hnamed]
  · intro hmistaken hkept
    refine Errors.raise_of_internal (List.any_eq_true.mpr ⟨_, Table.mem_of_get?_eq_some hkept, ?_⟩)
    exact (hinternal _).mpr hmistaken

def tagsRule : Rule :=
  { spec := { type := some (.known .array), elementType := some (.other (.str "colour")) } }

def personRule : Rule :=
  { spec := { type := some (.known .object) }, nested := some [("tags", tagsRule)] }

def personRules : RuleMap := [("person", personRule)]

def tags : Table Value := [("tags", .list [.str "red", .str "blue"])]

theorem wellNamed_personRules : WellNamed personRules := by
  have htags : WellNamed [("tags", tagsRule)] :=
    .intro (by decide) (by decide) (by simp [tagsRule, TextGroup])
      (by simp [tagsRule, Rule.nestedRules, wellNamed_nil])
  exact .intro (by decide) (by decide) (by simp [personRules, personRule, TextGroup])
    (by simp [personRules, personRule, Rule.nestedRules, htags])

theorem visits_tags (s : Setting) : Visits s ⟨personRules, [("person", .map tags)], ""⟩
    [⟨"person", none⟩] ⟨[("tags", tagsRule)], tags, "person"⟩ :=
  .part (.intro (e := ("person", personRule)) (v := .map tags) List.mem_cons_self
    ⟨{}, rfl, rfl⟩ rfl (.struct rfl)) .here

theorem flawed_tags : Flawed tagsRule "tags" tags .element :=
  .element ⟨⟨_, .declared rfl⟩, rfl, rfl⟩ (.known (.list _)) (.inl rfl) rfl

theorem unknown_tag_type_blamed : isInternalCode "request." = false ∧
    Flawed tagsRule "tags" tags .element ∧
      ∃ errors err, (Validator.validate { codes := "request." } (.map [("person", .map tags)])
        (some personRules) "").1 = .ok errors ∧
          errors.get? "person.tags[0]" = some err ∧ err.isInternal = true ∧
            ∃ details, errors.raise = .error (.misdeclared (.invalidRules details)) := by
  refine ⟨by decide, flawed_tags, ?_⟩
  obtain ⟨errors, err, hok, hblamed⟩ := Validator.flaw_blamed { codes := "request." } (by decide)
    personRules (.map [("person", .map tags)]) "" (visits_tags _) List.mem_cons_self ⟨{}, rfl, rfl⟩
    flawed_tags
  have hkept := hblamed.kept wellNamed_personRules
  have hpath : err.path = "person.tags[0]" := hblamed.path
  exact ⟨errors, err, hok, hpath ▸ hkept, hblamed.internal.mpr nofun, hblamed.raised nofun hkept⟩

def tripleRules : RuleMap :=
  [("name", { spec := { length := some (.tuple [.int 1, .int 2, .int 3]) } })]

def named : Table Value := [("name", .str "abcd")]

theorem triple_length_mistaken :
    Rule.declareAll [("name", [("type", .value (.str "string")),
      ("length", .value (.list [.int 1, .int 2, .int 3]))])] = .ok tripleRules ∧
    (∀ e ∈ tripleRules, Flawed e.2 e.1 named
      (.length (.tuple [.int 1, .int 2, .int 3]) (.int 4))) ∧
    ∃ errors err, (Validator.validate { codes := "request." } (.map named) (some tripleRules)
      "").1 = .ok errors ∧ errors = [("name", err)] ∧
        err.code = "request.validator.invalid_format" ∧ err.isInternal = false ∧
          ∃ details, errors.raise = .error (.rejected (.invalidFields details)) := by
  refine ⟨by cbv, ?_, ⟨_, _, rfl, rfl, rfl, by decide, _, rfl⟩⟩
  intro e he
  obtain rfl := List.mem_singleton.mp he
  refine .length (v := .str "abcd") ⟨⟨_, .declared rfl⟩, rfl, rfl⟩ ⟨.known (.string _), ?_⟩ rfl
    (.inr (.inl rfl)) ?_
  · rintro (hshape | hshape)
    · cases hshape
    · cases hshape
  · rintro ⟨helements, -, -⟩
    cases helements

end FieldRules
