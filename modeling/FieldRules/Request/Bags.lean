import FieldRules.Fault
import FieldRules.Number.Numeral
import FieldRules.Rule.Basic

namespace FieldRules.Request

abbrev Bags := Table (Table Value)

def defaultSource (method : String) : String :=
  if String.ofList (method.toList.map Text.lowerPlain) = "get" then "query" else "body"

def sourceOf (spec : RuleSpec) (source : String) : String :=
  (Text.nonempty? spec.source).getD source

def bag (bags : Bags) (name : String) : Table Value := (bags.get? name).getD []

def coerce (limit : Numeral.DigitLimit) (spec : RuleSpec) (v : Value) : Except Fault Value :=
  match v, spec.base? with
  | .str s, some .integer =>
    if Numeral.isInt s.toList then (Numeral.readInt limit s.toList).map .int else .ok v
  | .str s, some .float =>
    if Numeral.isDecimal s.toList then .ok (.float (Numeral.decimalOf s.toList)) else .ok v
  | .str s, some .boolean =>
    if Numeral.truthTexts.contains s then .ok (.bool (Numeral.trueTexts.contains s)) else .ok v
  | v, _ => .ok v

def sent? (bags : Bags) (source name : String) (spec : RuleSpec) : Option Value :=
  match (bag bags (sourceOf spec source)).get? name with
  | some v => some v
  | none => spec.default

def withoutEmptyText (v : Value) : Value :=
  match v with
  | .str "" => .null
  | v => v

def extractFrom (limit : Numeral.DigitLimit) (bags : Bags) (source : String) :
    List (String × RuleSpec) → Except Fault (Table Value)
  | [] => .ok []
  | (name, spec) :: rest =>
    match sent? bags source name spec with
    | none => extractFrom limit bags source rest
    | some v => match coerce limit spec (withoutEmptyText v) with
      | .error e => .error e
      | .ok v => (extractFrom limit bags source rest).map ((name, v) :: ·)

def extract (limit : Numeral.DigitLimit) (bags : Bags) (rules : RuleMap) (source : String) :
    Except Fault (Table Value) :=
  if rules.isEmpty then .error (.misdeclared (.noRules source))
  else extractFrom limit bags source (rules.map fun r => (r.1, r.2.spec))

end FieldRules.Request
