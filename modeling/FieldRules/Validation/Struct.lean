import FieldRules.Validation.Check
import FieldRules.Validation.Choice

namespace FieldRules.Validation

structure Setting where
  context : Context := {}
  codes : String := ""

namespace Setting

def code (s : Setting) (code : String) : String := prefixed s.codes code

def errorOf (s : Setting) (path label suffix : String) (fault : Fault) : FieldError :=
  let path := path ++ suffix
  let label : Value := .str (label ++ suffix)
  match fault with
  | .field code params => FieldError.make s.context path code (params.putNew "label" label)
  | fault =>
    if fault.isBadValue then
      FieldError.make s.context path (s.code "validator.invalid_format")
        [("label", label), ("detail", .str fault.wording)]
    else
      FieldError.make s.context path "internal.unknown_internal_error"
        [("label", label), ("message", .str fault.wording)]

end Setting

def baseOf (parent : String) : String := if parent = "" then "" else parent ++ "."

abbrev Outcome := List FieldError × Option Fault

def structsIn (shape : Shape) (path : String) (v : Value) : List (Table Value × String) :=
  match shape with
  | .struct => [(v.fields, path)]
  | .arrayOfStructs => items path 0 (v.items?.getD [])
  | _ => []
where
  items (path : String) : Nat → List Value → List (Table Value × String)
    | _, [] => []
    | i, v :: vs => (v.fields, path ++ indexed i) :: items path (i + 1) vs

def eachStruct (validate : Table Value → String → Outcome) :
    List (Table Value × String) → Outcome
  | [] => ([], none)
  | (data, path) :: rest =>
    match validate data path with
    | (errors, some fault) => (errors, some fault)
    | (errors, none) =>
      let (more, stopped) := eachStruct validate rest
      (errors ++ more, stopped)

def structOutcome (s : Setting) (specs : List (String × RuleSpec)) (data : Table Value)
    (parent : String) (fields : Choices → List FieldError) : Outcome :=
  let base := baseOf parent
  match choices s.context (s.code "validator.multiple_options_chosen") base data specs {} with
  | (errors, .error fault) => (errors, some fault)
  | (errors, .ok c) =>
    (errors ++ unchosen s.context (s.code "validator.no_option_chosen") base c ++ fields c, none)

def fieldErrors (s : Setting) (spec : RuleSpec) (shape : Shape) (custom : Option (Hook Check))
    (requiredWhen : Option (Hook Requirement)) (name : String) (data : Table Value) (base : String)
    (validate : Table Value → String → Outcome) : List FieldError :=
  let path := base ++ name
  let label := (Text.nonempty? spec.label).getD path
  match checkField s.codes spec shape custom requiredWhen label name data with
  | .error stop => [s.errorOf path label stop.suffix stop.fault]
  | .ok none => []
  | .ok (some v) =>
    match eachStruct validate (structsIn shape path v) with
    | (errors, none) => errors
    | (errors, some fault) => errors ++ [s.errorOf path label "" fault]

def specs (rules : RuleMap) : List (String × RuleSpec) := rules.map fun r => (r.1, r.2.spec)

mutual

def ofField (s : Setting) (name : String) (data : Table Value) (base : String) :
    Rule → List FieldError
  | ⟨spec, custom, requiredWhen, _, none⟩ =>
    fieldErrors s spec (Rule.shapeOf spec false) custom requiredWhen name data base
      fun _ _ => ([], none)
  | ⟨spec, custom, requiredWhen, _, some rules⟩ =>
    fieldErrors s spec (Rule.shapeOf spec !rules.isEmpty) custom requiredWhen name data base
      fun inner path => structOutcome s (specs rules) inner path fun c =>
        ofFields s c inner (baseOf path) rules

def ofFields (s : Setting) (c : Choices) (data : Table Value) (base : String) :
    List (String × Rule) → List FieldError
  | [] => []
  | (name, rule) :: rules =>
    (if c.admits rule.spec then ofField s name data base rule else []) ++
      ofFields s c data base rules

end

def ofStruct (s : Setting) (rules : RuleMap) (data : Table Value) (parent : String) : Outcome :=
  structOutcome s (specs rules) data parent fun c => ofFields s c data (baseOf parent) rules

end FieldRules.Validation
