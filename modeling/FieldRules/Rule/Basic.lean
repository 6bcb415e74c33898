import FieldRules.Rule.DeclaredType
import FieldRules.Condition.Composite
import FieldRules.Pattern.Parse

namespace FieldRules

structure ChoiceGroup where
  groupId : Value
  optionId : Value
  required : Bool := true
  deriving Repr, BEq

/-- The plain part of a rule. A flag that is not declared has no value. -/
structure RuleSpec where
  type : Option DeclaredType := some (.known .string)
  required : Option Bool := none
  emptyAllowed : Option Bool := none
  requireFilled : Option Bool := none
  label : Option String := none
  length : Option Value := none
  regex : Option Regex := none
  choiceGroup : Option ChoiceGroup := none
  elementType : Option DeclaredType := none
  filterType : Option DeclaredType := none
  wildcard : Option Value := none
  listAllowed : Option Bool := none
  rangeAllowed : Option Bool := none
  greaterAllowed : Option Bool := none
  lessAllowed : Option Bool := none
  negationAllowed : Option Bool := none
  enumValues : Option Value := none
  date : Option Bool := some false
  dateFormat : Option String := none
  sortable : Option Bool := none
  column : Option String := none
  table : Option String := none
  template : Option String := none
  ignoreFilter : Option Bool := some false
  sortExpression : Option String := none
  avoidBetween : Option Value := none
  columns : Option (Table (Option String)) := none
  source : Option String := none
  default : Option Value := none
  extra : Table Value := []
  deriving Repr, BEq

def flag (b : Option Bool) : Bool := b.getD false

namespace RuleSpec

def effectiveType (r : RuleSpec) : Option DeclaredType :=
  match r.filterType with
  | some t => if t.truthy then some t else r.type
  | none => r.type

def effectiveBase? (r : RuleSpec) : Option BaseType := DeclaredType.base? r.effectiveType

def base? (r : RuleSpec) : Option BaseType := DeclaredType.base? r.type

def hasEnum (r : RuleSpec) : Bool := r.enumValues.any Value.truthy

def isPrepared (r : RuleSpec) : Bool := r.filterType.isSome

end RuleSpec

abbrev Check := String → Table Value → RuleSpec → Except Fault Unit

abbrev Requirement := Table Value → Except Fault Value

inductive Answer where
  | value (v : Value)
  | fragment (f : Fragment)
  | group (c : Composite)
  deriving Repr

abbrev Callback := Value → RuleSpec → Except Fault Answer

inductive Hook (α : Type) where
  | call (name : String) (run : α)
  | value (v : Value)

namespace Hook

variable {α : Type}

def truthy : Hook α → Bool
  | call .. => true
  | value v => v.truthy

def agrees : Hook α → Hook α → Bool
  | call n _, call m _ => n == m
  | value v, value w => v == w
  | _, _ => false

def agree : Option (Hook α) → Option (Hook α) → Bool
  | some h, some k => h.agrees k
  | none, none => true
  | _, _ => false

end Hook

structure Rule where
  spec : RuleSpec
  custom : Option (Hook Check) := none
  requiredWhen : Option (Hook Requirement) := none
  callback : Option (Hook Callback) := none
  nested : Option (List (String × Rule)) := none

instance : Inhabited Rule := ⟨{ spec := {} }⟩

inductive Shape where
  | scalar
  | struct
  | arrayOfScalars
  | arrayOfStructs
  deriving DecidableEq, Repr

namespace Rule

def nestedRules (r : Rule) : List (String × Rule) := r.nested.getD []

def hasNested (r : Rule) : Bool := !r.nestedRules.isEmpty

def shapeOf (spec : RuleSpec) (hasNested : Bool) : Shape :=
  match spec.base?, spec.elementType with
  | some .array, some element =>
    match element with
    | .known b => if b.hasParts && hasNested then .arrayOfStructs else .arrayOfScalars
    | .other _ => .arrayOfScalars
  | some b, _ => if b.hasParts && hasNested then .struct else .scalar
  | none, _ => .scalar

def shape (r : Rule) : Shape := shapeOf r.spec r.hasNested

mutual

def agrees : Rule → Rule → Bool
  | ⟨spec, custom, requiredWhen, callback, none⟩, r =>
    spec == r.spec && Hook.agree custom r.custom && Hook.agree requiredWhen r.requiredWhen &&
      Hook.agree callback r.callback && r.nested.isNone
  | ⟨spec, custom, requiredWhen, callback, some rules⟩, r =>
    spec == r.spec && Hook.agree custom r.custom && Hook.agree requiredWhen r.requiredWhen &&
      Hook.agree callback r.callback && (match r.nested with
        | some others => rules.length == others.length && agreeAll rules others
        | none => false)

def agreeAll : List (String × Rule) → List (String × Rule) → Bool
  | [], _ => true
  | (name, r) :: rules, others =>
    (match Table.get? others name with
      | some s => agrees r s
      | none => false) && agreeAll rules others

end

end Rule

abbrev RuleMap := List (String × Rule)

namespace RuleMap

def agrees (a b : RuleMap) : Bool := a.length == b.length && Rule.agreeAll a b

end RuleMap

end FieldRules
