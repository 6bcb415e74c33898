import FieldRules.Request.Bags
import FieldRules.Validation.FieldError

namespace FieldRules.Request

inductive Stray where
  | unknown
  | misplaced
  deriving DecidableEq, Repr

namespace Stray

def code : Stray → String
  | unknown => "request.validator.unknown_parameter"
  | misplaced => "request.validator.parameter_in_wrong_http_portion"

end Stray

def checkedMaps (spec : RuleSpec) (path : String) (v : Value) : List (String × Table Value) :=
  match spec.base?, spec.elementType with
  | some .object, none | some .array, none =>
    match v with
    | .map entries => [(path, entries)]
    | _ => []
  | some .object, some t | some .array, some t =>
    match t with
    | .known b => if b.hasParts then mapItems path 0 (v.items?.getD []) else []
    | .other _ => []
  | _, _ => []
where
  mapItems (path : String) : Nat → List Value → List (String × Table Value)
    | _, [] => []
    | i, .map entries :: vs =>
      (path ++ "[" ++ toString i ++ "]", entries) :: mapItems path (i + 1) vs
    | i, _ :: vs => mapItems path (i + 1) vs

def straysIn (check : String → String → Value → List (String × Stray)) :
    List (String × Table Value) → List (String × Stray)
  | [] => []
  | (path, entries) :: rest =>
    (entries.flatMap fun e => check (path ++ "." ++ e.1) e.1 e.2) ++ straysIn check rest

mutual

def belowField (path : String) (v : Value) : Rule → List (String × Stray)
  | ⟨_, _, _, _, none⟩ => []
  | ⟨spec, _, _, _, some rules⟩ =>
    if rules.isEmpty then []
    else straysIn (fun path name v => belowName path name v rules) (checkedMaps spec path v)

def belowName (path name : String) (v : Value) : List (String × Rule) → List (String × Stray)
  | [] => [(path, .unknown)]
  | (declared, rule) :: rules =>
    if declared = name then belowField path v rule else belowName path name v rules

end

def strayOf (rules : RuleMap) (source bagName name : String) (v : Value) :
    List (String × Stray) :=
  match Table.get? rules name with
  | none => [(name, .unknown)]
  | some rule =>
    if bagName ≠ sourceOf rule.spec source then [(name, .misplaced)]
    else belowField name v rule

def checkedBags : List String := ["body", "query"]

def strays (bags : Bags) (rules : RuleMap) (source : String) : List (String × Stray) :=
  checkedBags.flatMap fun bagName =>
    (bag bags bagName).flatMap fun e => strayOf rules source bagName e.1 e.2

def unknownParameters (ctx : Context) (bags : Bags) (rules : RuleMap) (source : String) :
    Errors :=
  Errors.ofList ((strays bags rules source).map fun (path, stray) =>
    FieldError.make ctx path stray.code [("label", .str path)])

end FieldRules.Request
