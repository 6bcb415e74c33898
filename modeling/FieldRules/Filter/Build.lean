import FieldRules.Filter.Test

namespace FieldRules.Filter

abbrev Built := Except Fault (List Fragment) × ParamNames

def drawn (names : ParamNames) (draws : Nat) (make : String → String → Except Fault Fragment) :
    Except Fault Fragment × ParamNames :=
  (make (names.name 0) (names.name 1), names.advance draws)

def testFragment (spec : RuleSpec) (column : String) (names : ParamNames) (draws : Nat)
    (test : Except Fault Test) : Except Fault Fragment × ParamNames :=
  drawn names draws fun p q => test.bind (Test.fragment spec column p q)

def operatorFragments (limit : Numeral.DigitLimit) (spec : RuleSpec) (column : String)
    (single : Bool) :
    List String → ParamNames → Except Fault (List Fragment × List String) × ParamNames
  | [], names => (.ok ([], []), names)
  | item :: rest, names =>
    match Match.find? spec single item.toList with
    | .error e => (.error e, names)
    | .ok none =>
      let (result, names) := operatorFragments limit spec column single rest names
      (result.map fun (fragments, bucket) => (fragments, item :: bucket), names)
    | .ok (some m) =>
      match testFragment spec column names m.draws (m.test limit spec) with
      | (.error e, names) => (.error e, names)
      | (.ok f, names) =>
        let (result, names) := operatorFragments limit spec column single rest names
        (result.map fun (fragments, bucket) => (f :: fragments, bucket), names)

def equalityFragment (limit : Numeral.DigitLimit) (spec : RuleSpec) (column : String)
    (asList : Bool) (items : List String) (names : ParamNames) : Except Fault Fragment × ParamNames :=
  testFragment spec column names 1 (equality limit spec asList items)

def alone (built : Except Fault Fragment × ParamNames) : Built :=
  (built.1.map ([·]), built.2)

def itemFragments (limit : Numeral.DigitLimit) (spec : RuleSpec) (column : String)
    (items : List String) (names : ParamNames) : Built :=
  match operatorFragments limit spec column (items.length == 1) items names with
  | (.error e, names) => (.error e, names)
  | (.ok (fragments, []), names) => (.ok fragments, names)
  | (.ok (fragments, bucket), names) =>
    let (last, names) := equalityFragment limit spec column false bucket names
    (last.map fun f => fragments ++ [f], names)

def templateValue (limit : Numeral.DigitLimit) (spec : RuleSpec) (template name : String)
    (items : List String) : Except Fault Fragment :=
  (boundAll limit spec items).map fun
    | [v] => ⟨Text.replaced template "{VALUE}" name, [(name, v)]⟩
    | vs => ⟨Text.replaced template "{VALUE}" name, [(name, .list vs)]⟩

def templateOperation (limit : Numeral.DigitLimit) (spec : RuleSpec) (template column : String)
    (items : List String) (names : ParamNames) : Except Fault Fragment × ParamNames :=
  let make (draws : Nat) (test : Except Fault Test) :=
    drawn names draws fun p q => test.bind (Test.inTemplate spec template column p q)
  match items with
  | [item] =>
    match Match.find? spec true item.toList with
    | .error e => (.error e, names)
    | .ok none => make 1 (equality limit spec false [item])
    | .ok (some m) => make m.draws (m.test limit spec)
  | items => make 1 ((boundAll limit spec items).map (.among false))

def templateFragments (limit : Numeral.DigitLimit) (spec : RuleSpec) (template column : String)
    (items : List String) (names : ParamNames) : Built :=
  if Text.mentions template "{OPERATION_VALUE}" then
    alone (templateOperation limit spec template column items names)
  else if Text.mentions template "{VALUE}" then
    alone (drawn names 1 fun p _ => templateValue limit spec template p items)
  else (.ok [⟨template, []⟩], names)

def callbackParams (v : Value) : Except Fault (Table Value) :=
  match v with
  | .map entries => .ok entries
  | v => if v.truthy then .error .wrongKind else .ok []

def answerFragments : Answer → Except Fault (List Fragment)
  | .fragment f => .ok [f]
  | .group c =>
    if c.parts.isEmpty then .ok []
    else .error (.misdeclared (.callbackReturned "Composite"))
  | .value v =>
    if !v.truthy then .ok []
    else
      let entries := v.entries?.getD []
      match (entries.get? "cond").filter Value.truthy with
      | some cond =>
        (callbackParams ((entries.get? "params").getD .null)).map fun params =>
          [⟨cond.text, params⟩]
      | none => .error (.misdeclared (.callbackReturned v.kindName))

def callbackFragments (callback : Hook Callback) (spec : RuleSpec) (items : List String) :
    Except Fault (List Fragment) :=
  match callback with
  | .value _ => .error (.misdeclared .callbackNotCallable)
  | .call _ run =>
    let given : Value := match items with
      | [s] => .str s
      | all => .list (all.map .str)
    match run given spec with
    | .error e => .error e
    | .ok answer => answerFragments answer

def askedTruth (v : Value) : Bool :=
  match v with
  | .bool b => b
  | v => Numeral.trueTexts.contains (String.ofList (v.typed.toList.map Text.lowerPlain))

def isLiteral (r : Rule) : Bool :=
  r.spec.effectiveBase? == some .boolean &&
    (Text.nonempty? r.spec.template).isNone && !r.callback.any Hook.truthy

def ruleFragments (limit : Numeral.DigitLimit) (r : Rule) (column : String)
    (items : List String) (names : ParamNames) : Built :=
  match r.callback, Text.nonempty? r.spec.template with
  | some callback, _ => (callbackFragments callback r.spec items, names)
  | none, some template => templateFragments limit r.spec template column items names
  | none, none =>
    if r.spec.hasEnum then alone (equalityFragment limit r.spec column true items names)
    else itemFragments limit r.spec column items names

def build (limit : Numeral.DigitLimit) (r : Rule) (column : String) (v : Value)
    (names : ParamNames) : Built :=
  if isLiteral r then
    (.ok [⟨column ++ " = " ++ (if askedTruth v then "true" else "false"), []⟩], names)
  else match items r.spec v with
    | .error e => (.error e, names)
    | .ok [] => (.ok [], names)
    | .ok items => ruleFragments limit r column items names

end FieldRules.Filter
