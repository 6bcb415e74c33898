import FieldRules.Message.Catalog
import FieldRules.Rule.Basic

namespace FieldRules.Validation

def prefixed (codes : String) (code : String) : String :=
  if isInternalCode code then code else codes ++ code

structure Stop where
  suffix : String := ""
  fault : Fault

def required? (spec : RuleSpec) (requiredWhen : Option (Hook Requirement)) (data : Table Value) :
    Except Fault (Option Bool) :=
  match requiredWhen with
  | none => .ok spec.required
  | some (.call _ run) => (run data).map fun v => some v.truthy
  | some (.value _) => .error .wrongKind

/-- Presence and emptiness. A declared `required` or `empty` overrides `requireFilled`; what is
    left to check is the value, unless it is empty. -/
def presence (codes : String) (spec : RuleSpec) (required : Option Bool) (entry : Option Value) :
    Except Fault (Option Value) :=
  let requireFilled :=
    if required.isSome || spec.emptyAllowed.isSome then none else spec.requireFilled
  let canBeEmpty := (requireFilled.isNone && spec.emptyAllowed.isNone) ||
    requireFilled == some false || flag spec.emptyAllowed
  match entry with
  | none =>
    if flag required || requireFilled.isSome then
      .error (.field (prefixed codes "validator.missing_required_info") [])
    else .ok none
  | some v =>
    if !v.isEmpty then .ok (some v)
    else if canBeEmpty then .ok none
    else .error (.field (prefixed codes "validator.empty_info") [])

def hasType (b : BaseType) (v : Value) : Bool :=
  match b, v with
  | .string, .str _ => true
  | .integer, .int _ => true
  | .integer, .float x => x.isInteger
  | .float, .int _ => true
  | .float, .float _ => true
  | .boolean, .bool _ => true
  | .object, .map _ => true
  | .object, .obj _ => true
  | .array, .list _ => true
  | .array, .tuple _ => true
  | _, _ => false

def checkType (codes : String) (type : Option DeclaredType) (v : Value) : Except Fault Unit :=
  match DeclaredType.base? type with
  | none => .error (.field "internal.validator.unsupported_type"
      [("type", .str (DeclaredType.label type))])
  | some b =>
    if hasType b v then .ok ()
    else .error (.field (prefixed codes "validator.wrong_type")
      [("got", .str v.kindName), ("expected", .str b.name)])

def indexed (i : Nat) : String := "[" ++ toString i ++ "]"

def checkItems (codes : String) (type : Option DeclaredType) : Nat → List Value → Option Stop
  | _, [] => none
  | i, v :: vs =>
    match checkType codes type v with
    | .error fault => some ⟨indexed i, fault⟩
    | .ok () => checkItems codes type (i + 1) vs

def bounds? (length : Value) : Except Fault (Value × Value) :=
  match length.elements? with
  | some [low, high] => .ok (low, high)
  | some _ => .error (.badValue none)
  | none => .error .wrongKind

def measure (numeric : Bool) (v : Value) : Value :=
  if numeric then v
  else match v with
    | .str s => .int s.length
    | v => .int ((v.items?.getD []).length)

def within? (low size high : Value) : Except Fault Bool :=
  match low.atMost? size with
  | none => .error .wrongKind
  | some false => .ok false
  | some true => match size.atMost? high with
    | none => .error .wrongKind
    | some b => .ok b

def checkLength (codes : String) (numeric : Bool) (length v : Value) : Except Fault Unit :=
  match bounds? length with
  | .error e => .error e
  | .ok (low, high) =>
    match within? low (measure numeric v) high with
    | .error e => .error e
    | .ok true => .ok ()
    | .ok false =>
      let code := if numeric then "validator.invalid_numeric_length"
        else "validator.invalid_string_length"
      .error (.field (prefixed codes code) [("min", low), ("max", high)])

def checkPattern (codes : String) (pattern : Regex) (v : Value) : Except Fault Unit :=
  match v.written? with
  | .error fault => .error fault
  | .ok text => match pattern.search text with
    | .ok true => .ok ()
    | .ok false => .error (.field (prefixed codes "validator.invalid_format") [])
    | .error .brokenPattern => .error (.field "internal.validator.invalid_regex"
        [("regex", .str pattern.written.text)])
    | .error fault => .error fault

def checkCustom (custom : Option (Hook Check)) (spec : RuleSpec) (label name : String)
    (data : Table Value) : Except Fault Unit :=
  match custom with
  | none => .ok ()
  | some (.value v) =>
    if v.truthy then .error (.field "internal.validator.non_callable_custom" []) else .ok ()
  | some (.call _ run) =>
    run name data (match Text.nonempty? spec.label with
      | some _ => spec
      | none => { spec with label := some label })

def checkContent (codes : String) (spec : RuleSpec) (shape : Shape)
    (custom : Option (Hook Check)) (label name : String) (data : Table Value) (v : Value) :
    Except Fault Unit := do
  let numeric := spec.base?.any BaseType.isNumeric
  let textual := spec.base? == some .string
  let ofArray := shape == .arrayOfScalars || shape == .arrayOfStructs
  if let some length := spec.length then
    if numeric || textual || ofArray then checkLength codes numeric length v
  if let some pattern := spec.regex then
    if numeric || textual then checkPattern codes pattern v
  checkCustom custom spec label name data

def checkValue (codes : String) (spec : RuleSpec) (shape : Shape) (custom : Option (Hook Check))
    (label name : String) (data : Table Value) (v : Value) : Except Stop Unit :=
  match checkType codes spec.type v with
  | .error fault => .error ⟨"", fault⟩
  | .ok () =>
    let items :=
      if shape = .arrayOfScalars ∨ shape = .arrayOfStructs then v.items?.getD [] else []
    match checkItems codes spec.elementType 0 items with
    | some stop => .error stop
    | none =>
      match checkContent codes spec shape custom label name data v with
      | .error fault => .error ⟨"", fault⟩
      | .ok () => .ok ()

def checkField (codes : String) (spec : RuleSpec) (shape : Shape) (custom : Option (Hook Check))
    (requiredWhen : Option (Hook Requirement)) (label name : String) (data : Table Value) :
    Except Stop (Option Value) :=
  match required? spec requiredWhen data with
  | .error fault => .error ⟨"", fault⟩
  | .ok required =>
    match presence codes spec required (data.get? name) with
    | .error fault => .error ⟨"", fault⟩
    | .ok none => .ok none
    | .ok (some v) =>
      match checkValue codes spec shape custom label name data v with
      | .error stop => .error stop
      | .ok () => .ok (some v)

end FieldRules.Validation
