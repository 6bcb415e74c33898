import FieldRules.Filter.Grammar

namespace FieldRules.Validation

def checkDate (codes : String) : Check := fun field data spec =>
  match Filter.Grammar.informed? data field with
  | none => .ok ()
  | some v =>
    match Filter.isDate ((Text.nonempty? spec.dateFormat).getD "%Y-%m-%d") v.text with
    | .ok true => .ok ()
    | .ok false => .error (.field (codes ++ "validator.invalid_format") [])
    | .error e => .error e

def enumerated? (spec : RuleSpec) (v : Value) : Except Fault Bool :=
  if spec.hasEnum then
    match v.among? (spec.enumValues.getD .null) with
    | some b => .ok b
    | none => .error .wrongKind
  else .ok false

def checkEnum (codes : String) : Check := fun field data spec =>
  match Filter.Grammar.informed? data field with
  | none => .ok ()
  | some v =>
    match enumerated? spec v with
    | .ok true => .ok ()
    | .ok false => .error (.field (codes ++ "validator.invalid_format") [])
    | .error e => .error e

def checkEntityEnum : Check := fun field data spec =>
  match enumerated? spec ((data.get? field).getD .null) with
  | .ok true => .ok ()
  | .ok false =>
    match (spec.extra.get? "_prefix").getD (.str "entity.") with
    | .str codes => .error (.field (codes ++ "validator.invalid_format")
        [("label", match spec.label with
          | some label => .str label
          | none => .null)])
    | _ => .error .wrongKind
  | .error e => .error e

end FieldRules.Validation
