import FieldRules.Filter.Compile
import FieldRules.Text.Upper

namespace FieldRules.Search

inductive Direction where
  | ascending
  | descending
  deriving DecidableEq, Repr

namespace Direction

def text : Direction → String
  | ascending => "ASC"
  | descending => "DESC"

def inverse : Direction → Direction
  | ascending => descending
  | descending => ascending

def ofText? : String → Option Direction
  | "ASC" => some ascending
  | "DESC" => some descending
  | _ => none

end Direction

def orderItem (item : String) : String × String :=
  match Text.cutAt '|' item.toList with
  | (name, none) => (String.ofList name, "ASC")
  | (name, some []) => (String.ofList name, "ASC")
  | (name, some direction) => (String.ofList name, Text.upper (String.ofList direction))

def withDirection (expression : String) (d : Direction) : String :=
  Text.replaced (Text.replaced expression "{DIRECTION}" d.text) "{INVERSE_DIRECTION}"
    d.inverse.text

def orderExpression (rules : RuleMap) (table name : String) (d : Direction) :
    Except Fault String :=
  let declared := if isImplicit name then none else Table.get? rules name
  match declared with
  | some r => match Text.nonempty? r.spec.sortExpression with
    | some expression => .ok (withDirection expression d)
    | none => .ok (Filter.columnOf name r.spec table ++ " " ++ d.text)
  | none =>
    let allowed := ((Table.get? rules "orderBy").bind (·.spec.columns)).getD []
    match allowed.get? name with
    | some column =>
      .ok ((Text.nonempty? column).getD (table ++ "." ++ name) ++ " " ++ d.text)
    | none => .error (.misdeclared (.fieldNotSortable name))

def orderOf (rules : RuleMap) (table item : String) : Except Fault String :=
  let (name, direction) := orderItem item
  match Direction.ofText? direction with
  | none => .error (.misdeclared (.invalidDirection name direction))
  | some d => orderExpression rules table name d

def orderAll (rules : RuleMap) (table : String) : List String → Except Fault (List String)
  | [] => .ok []
  | item :: rest => match orderOf rules table item with
    | .error e => .error e
    | .ok s => (orderAll rules table rest).map (s :: ·)

def orderBy (raw : Value) (rules : RuleMap) (defaultAlias : String) :
    Except Fault (List String) :=
  if !raw.truthy then .ok []
  else match raw with
    | .str s => orderAll rules (Text.withoutEndDots defaultAlias) (Text.pieces s ',')
    | .bytes _ => .error .wrongKind
    | _ => .error .noAttribute

def clause? (expressions : List String) : Option String :=
  (some (Text.join ", " expressions)).filter (· != "")

end FieldRules.Search
