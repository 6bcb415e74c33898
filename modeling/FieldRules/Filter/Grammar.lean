import FieldRules.Calendar.Reading
import FieldRules.Number.Numeral
import FieldRules.Rule.Basic
import FieldRules.Text.Row
import FieldRules.Value.Compare

namespace FieldRules.Filter

structure Grammar where
  codes : String := "request."
  dateFormat : String := "%Y-%m-%d"
  deriving DecidableEq, Repr

def isDate (format text : String) : Except Fault Bool :=
  match Calendar.isDate? text.toList format.toList with
  | some b => .ok b
  | none => .error .brokenPattern

def rowOf (text : String) : Except Fault (List String) :=
  match Text.splitRow text.toList with
  | .ok fields => .ok (fields.map String.ofList)
  | .error _ => .error .brokenRow

def wildcardEnds (wildcard : Option Value) : Except Fault (Bool × Bool) :=
  match wildcard with
  | none => .ok (false, false)
  | some (.bool b) => .ok (b, b)
  | some v =>
    if !v.truthy then .ok (false, false)
    else match v.elements? with
      | some [front, back] => .ok (front.truthy, back.truthy)
      | some _ => .error (.badValue none)
      | none => .error .wrongKind

inductive Reader where
  | date (format : String)
  | integer
  | decimal
  deriving DecidableEq, Repr

def Reader.accepts (r : Reader) (cs : List Char) : Except Fault Bool :=
  match r with
  | date format => isDate format (String.ofList cs)
  | integer => .ok (Numeral.isInt cs)
  | decimal => .ok (Numeral.isDecimal cs)

def Reader.acceptsAll (r : Reader) : List (List Char) → Except Fault Bool
  | [] => .ok true
  | cs :: rest => match r.accepts cs with
    | .ok true => r.acceptsAll rest
    | other => other

def comparison? (spec : RuleSpec) : List Char → Option (Bool × List Char)
  | '<' :: '=' :: rest => some (flag spec.lessAllowed, rest)
  | '>' :: '=' :: rest => some (flag spec.greaterAllowed, rest)
  | '<' :: rest => some (flag spec.lessAllowed, rest)
  | '>' :: rest => some (flag spec.greaterAllowed, rest)
  | _ => none

/-- Whether one item of a list of comparable values is well formed. Only the first item may be
    negated. -/
def comparableItem (spec : RuleSpec) (r : Reader) (first : Bool) (cs : List Char) :
    Except Fault Bool :=
  if flag spec.rangeAllowed && cs.contains '|' then
    let bounds := Text.splitOn '|' cs
    if bounds.length = 2 then r.acceptsAll bounds else .ok false
  else match comparison? spec cs with
    | some (allowed, rest) => if allowed then r.accepts rest else .ok false
    | none => match cs with
      | '!' :: rest => if flag spec.negationAllowed && first then r.accepts rest else .ok false
      | cs => r.accepts cs

def comparableItems (spec : RuleSpec) (r : Reader) : Bool → List (List Char) → Except Fault Bool
  | _, [] => .ok true
  | first, cs :: rest => match comparableItem spec r first cs with
    | .ok true => comparableItems spec r false rest
    | other => other

def enumItems (spec : RuleSpec) (allowed : List String) : List String → Bool
  | [] => true
  | item :: rest =>
    let bare := match item.toList with
      | '!' :: cs => if flag spec.negationAllowed then String.ofList cs else item
      | _ => item
    allowed.contains bare && rest.all allowed.contains

def wildcardsFit (ends : Bool × Bool) (item : String) : Bool :=
  let cs := item.toList
  !(cs.head? == some '%' && !ends.1) && !(cs.getLast? == some '%' && !ends.2)

def sortItem (columns : Table (Option String)) (item : String) : Bool :=
  match Text.pieces item '|' with
  | [name] => columns.has name
  | [name, direction] =>
    columns.has name && (Text.upper direction == "ASC" || Text.upper direction == "DESC")
  | _ => false

namespace Grammar

def invalid (g : Grammar) : Fault := .field (g.codes ++ "validator.invalid_format") []

def verdict (g : Grammar) : Except Fault Bool → Except Fault Unit
  | .ok true => .ok ()
  | .ok false => .error g.invalid
  | .error e => .error e

def informed? (data : Table Value) (field : String) : Option Value :=
  (data.get? field).filter fun v => !v.isBlank

def listItems (spec : RuleSpec) (v : Value) : List String :=
  if flag spec.listAllowed then Text.pieces v.typed ',' else [v.typed]

def checkEnum (g : Grammar) : Check := fun field data spec =>
  match informed? data field with
  | none => .ok ()
  | some v =>
    let values := if spec.hasEnum then (spec.enumValues.getD .null).elements? else some []
    match values with
    | none => .error .wrongKind
    | some values => g.verdict (.ok (enumItems spec (values.map Value.typed) (listItems spec v)))

def checkString (g : Grammar) : Check := fun field data spec =>
  match informed? data field with
  | none => .ok ()
  | some v => do
    let ends ← wildcardEnds spec.wildcard
    if flag spec.listAllowed then
      let items ← rowOf v.typed
      g.verdict (.ok (!items.isEmpty && items.all (wildcardsFit ends)))
    else g.verdict (.ok (wildcardsFit ends v.typed))

def reader (g : Grammar) (spec : RuleSpec) : Reader :=
  if flag spec.date then .date ((Text.nonempty? spec.dateFormat).getD g.dateFormat)
  else if spec.effectiveBase? = some .integer then .integer
  else .decimal

def checkComparable (g : Grammar) : Check := fun field data spec =>
  match informed? data field with
  | none => .ok ()
  | some v =>
    g.verdict (comparableItems spec (g.reader spec) true ((listItems spec v).map String.toList))

def checkOrderBy (g : Grammar) : Check := fun field data spec =>
  match informed? data field with
  | none => .ok ()
  | some v =>
    g.verdict (.ok ((Text.pieces v.text ',').all (sortItem (spec.columns.getD []))))

end Grammar

inductive GrammarCheck where
  | enum | string | integer | float | date | orderBy
  deriving DecidableEq, Repr

namespace GrammarCheck

def name : GrammarCheck → String
  | enum => "SearchValidator.validate_enum"
  | string => "SearchValidator.validate_string"
  | integer => "SearchValidator.validate_integer"
  | float => "SearchValidator.validate_float"
  | date => "SearchValidator.validate_date"
  | orderBy => "SearchValidator.validate_order_by"

def run (c : GrammarCheck) (g : Grammar) : Check :=
  match c with
  | enum => g.checkEnum
  | string => g.checkString
  | integer => g.checkComparable
  | float => g.checkComparable
  | date => g.checkComparable
  | orderBy => g.checkOrderBy

def hook (c : GrammarCheck) (g : Grammar) : Hook Check := .call c.name (c.run g)

end GrammarCheck

end FieldRules.Filter
