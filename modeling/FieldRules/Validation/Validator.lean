import FieldRules.Entity.World
import FieldRules.Validation.Struct

namespace FieldRules

structure Validator where
  context : Context := {}
  codes : String := ""
  errors : Errors := []

namespace Validator

def setting (v : Validator) : Validation.Setting := ⟨v.context, v.codes⟩

def setPrefix (v : Validator) (codes : String) : Validator := { v with codes }

def reset (v : Validator) : Validator := { v with errors := [] }

def partsOf (data : Value) : Table Value := if data.truthy then data.fields else []

def validate (v : Validator) (data : Value) (rules : Option RuleMap) (parent : String) :
    Except Fault Errors × Validator :=
  match rules with
  | none => (.error (.misdeclared (.rulesRequired parent)), v)
  | some rules =>
    let (found, stopped) := Validation.ofStruct v.setting rules (partsOf data) parent
    let errors := Errors.ofList found
    let result := match stopped with
      | some fault => .error fault
      | none => .ok errors
    (result, { v with errors })

def entityFields (w : World) (s : Subject) : RuleMap → Except Fault (Table Value × RuleMap)
  | [] => .ok ([], [])
  | (name, rule) :: rules => do
    let value ← w.get s name
    let rule ← match Text.nonempty? rule.spec.label with
      | some _ => .ok rule
      | none => (w.label s name).map fun label =>
        { rule with spec := { rule.spec with label := some label } }
    let (values, labelled) ← entityFields w s rules
    return ((name, value) :: values, (name, rule) :: labelled)

def validateEntity (v : Validator) (w : World) (s : Subject) (rules : RuleMap) (codes : String) :
    Except Fault Errors × Validator :=
  if rules.isEmpty then (.ok [], v.reset)
  else match entityFields w s rules with
    | .error e => (.error e, v)
    | .ok (values, labelled) => (v.setPrefix codes).validate (.map values) (some labelled) ""

end Validator

end FieldRules
