import FieldRules.Rule.Basic
import FieldRules.Validation.FieldError

namespace FieldRules.Validation

structure Choices where
  chosen : List (Value × Value) := []
  required : List (Value × Bool) := []

def lookupSame {α : Type} : List (Value × α) → Value → Option α
  | [], _ => none
  | (k, a) :: rest, key => if k.same key then some a else lookupSame rest key

namespace Choices

def option? (c : Choices) (groupId : Value) : Option Value := lookupSame c.chosen groupId

def note (c : Choices) (g : ChoiceGroup) : Choices :=
  if (lookupSame c.required g.groupId).isSome then c
  else { c with required := c.required ++ [(g.groupId, g.required)] }

def choose (c : Choices) (g : ChoiceGroup) : Choices :=
  { c with chosen := c.chosen ++ [(g.groupId, g.optionId)] }

def admits (c : Choices) (spec : RuleSpec) : Bool :=
  match spec.choiceGroup with
  | none => true
  | some g => match c.option? g.groupId with
    | some o => o.same g.optionId
    | none => false

end Choices

def otherOption (ctx : Context) (code path : String) (spec : RuleSpec) (g : ChoiceGroup) :
    FieldError :=
  FieldError.make ctx path code
    [("label", .str ((Text.nonempty? spec.label).getD path)), ("group", g.groupId)]

/-- Goes through the members in the order of the rules. A group named by something changeable
    stops the pass. -/
def choices (ctx : Context) (code base : String) (data : Table Value) :
    List (String × RuleSpec) → Choices → List FieldError × Except Fault Choices
  | [], c => ([], .ok c)
  | (name, spec) :: rest, c =>
    match spec.choiceGroup with
    | none => choices ctx code base data rest c
    | some g =>
      if !g.groupId.isKey then ([], .error .wrongKind)
      else
        let noted := c.note g
        if !data.has name then choices ctx code base data rest noted
        else match noted.option? g.groupId with
          | none => choices ctx code base data rest (noted.choose g)
          | some o =>
            let (errors, result) := choices ctx code base data rest noted
            if o.same g.optionId then (errors, result)
            else (otherOption ctx code (base ++ name) spec g :: errors, result)

def unchosen (ctx : Context) (code base : String) (c : Choices) : List FieldError :=
  c.required.filterMap fun (groupId, required) =>
    if required && (c.option? groupId).isNone then
      some (FieldError.make ctx (base ++ "_choice_group_" ++ groupId.text) code
        [("group", groupId)])
    else none

end FieldRules.Validation
