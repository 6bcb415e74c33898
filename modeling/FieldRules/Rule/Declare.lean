import FieldRules.Rule.Basic

namespace FieldRules

inductive Declaration where
  | value (v : Value)
  | check (name : String) (run : Check)
  | requirement (name : String) (run : Requirement)
  | callback (name : String) (run : Callback)
  | rules (entries : List (String × List (String × Declaration)))

instance : Inhabited Declaration := ⟨.value .null⟩

namespace Declaration

def toValue : Declaration → Value
  | value v => v
  | _ => .null

def given? (d : Option Declaration) : Option Value :=
  match d with
  | some (value .null) => none
  | some (value v) => some v
  | _ => none

def flag? (d : Option Declaration) : Option Bool := (given? d).map Value.truthy

def text? (d : Option Declaration) : Option String := (given? d).map Value.text

def check? : Option Declaration → Option (Hook Check)
  | some (check name run) => some (.call name run)
  | d => (given? d).map .value

def requirement? : Option Declaration → Option (Hook Requirement)
  | some (requirement name run) => some (.call name run)
  | d => (given? d).map .value

def callback? : Option Declaration → Option (Hook Callback)
  | some (callback name run) => some (.call name run)
  | d => (given? d).map .value

def frozen : Value → Value
  | .list items => .tuple items
  | v => v

def lengthOf : Value → Value
  | .int n => .tuple [.int n, .int n]
  | .bool b => .tuple [.bool b, .bool b]
  | v => frozen v

def columnsOf? : Value → Except Fault (Option (Table (Option String)))
  | .null => .ok none
  | .map entries => .ok (some (entries.map fun e => (e.1, match e.2 with
    | .null => none
    | v => some v.text)))
  | v => match v.items? with
    | some names => .ok (some (Table.ofEntries (names.map fun n => (n.text, none))))
    | none => .error .wrongKind

end Declaration

def ChoiceGroup.ofValue? (v : Value) : Except Fault (Option ChoiceGroup) :=
  match v with
  | .null => .ok none
  | v => match v.items? with
    | some [group, option] => .ok (some ⟨group, option, true⟩)
    | some [group, option, required] => .ok (some ⟨group, option, required.truthy⟩)
    | _ => .error (.misdeclared (.invalidChoiceGroup v.quoted))

def ruleKeys : List String :=
  ["type", "required", "requiredWhen", "empty", "requireFilled", "label", "length", "regex",
    "choiceGroup", "custom", "rules", "of", "wildcard", "list", "range", "gt", "lt", "negation",
    "enum", "date", "dateFmt", "sortable", "column", "alias", "conditionTemplate",
    "conditionCallback", "ignoreFilter", "sortExpr", "avoidBetweenOperand", "columns", "from",
    "default"]

namespace RuleSpec

def typeOf (d : Option Declaration) : Except Fault (Option DeclaredType) :=
  match d with
  | none => .ok (some (.known .string))
  | some d => DeclaredType.ofValue d.toValue

def checkElement (type element : Option DeclaredType) : Except Fault Unit :=
  if element.isSome && DeclaredType.base? type != some .array then
    .error (.misdeclared (.elementOfNonArray (DeclaredType.label type)
      (DeclaredType.label element)))
  else .ok ()

def flagOrFalse (d : Option Declaration) : Option Bool :=
  match d with
  | none => some false
  | d => Declaration.flag? d

def ofEntries (entries : List (String × Declaration)) : Except Fault RuleSpec := do
  let get := Table.get? entries
  let given (key : String) := Declaration.given? (get key)
  let flag (key : String) := Declaration.flag? (get key)
  let text (key : String) := Declaration.text? (get key)
  let type ← typeOf (get "type")
  let elementType ← DeclaredType.ofValue ((given "of").getD .null)
  checkElement type elementType
  let choiceGroup ← ChoiceGroup.ofValue? ((given "choiceGroup").getD .null)
  let columns ← Declaration.columnsOf? ((given "columns").getD .null)
  return {
    type, elementType, choiceGroup, columns
    required := flag "required"
    emptyAllowed := flag "empty"
    requireFilled := flag "requireFilled"
    label := text "label"
    length := (given "length").map Declaration.lengthOf
    regex := (given "regex").map Regex.ofValue
    wildcard := (given "wildcard").map Declaration.frozen
    listAllowed := flag "list"
    rangeAllowed := flag "range"
    greaterAllowed := flag "gt"
    lessAllowed := flag "lt"
    negationAllowed := flag "negation"
    enumValues := (given "enum").map Declaration.frozen
    date := flagOrFalse (get "date")
    dateFormat := text "dateFmt"
    sortable := flag "sortable"
    column := text "column"
    table := text "alias"
    template := text "conditionTemplate"
    ignoreFilter := flagOrFalse (get "ignoreFilter")
    sortExpression := text "sortExpr"
    avoidBetween := (given "avoidBetweenOperand").map Declaration.frozen
    source := text "from"
    default := (get "default").map Declaration.toValue
    extra := entries.filterMap fun e =>
      if ruleKeys.contains e.1 then none else some (e.1, e.2.toValue) }

end RuleSpec

namespace Rule

def assemble (entries : List (String × Declaration))
    (nested : Except Fault (Option (List (String × Rule)))) : Except Fault Rule := do
  let get := Table.get? entries
  let spec ← RuleSpec.ofEntries entries
  let nested ← nested
  return {
    spec, nested
    custom := Declaration.check? (get "custom")
    requiredWhen := Declaration.requirement? (get "requiredWhen")
    callback := Declaration.callback? (get "conditionCallback") }

mutual

def declare (entries : List (String × Declaration)) : Except Fault Rule :=
  assemble entries (declareParts entries)

def declareParts : List (String × Declaration) → Except Fault (Option (List (String × Rule)))
  | [] => .ok none
  | (key, d) :: entries =>
    if key = "rules" then declareNested d else declareParts entries

def declareNested : Declaration → Except Fault (Option (List (String × Rule)))
  | .rules entries => (declareAll entries).map some
  | _ => .ok none

def declareAll : List (String × List (String × Declaration)) →
    Except Fault (List (String × Rule))
  | [] => .ok []
  | (name, entries) :: rest =>
    match declare entries with
    | .error e => .error e
    | .ok rule => (declareAll rest).map ((name, rule) :: ·)

end

end Rule

end FieldRules
