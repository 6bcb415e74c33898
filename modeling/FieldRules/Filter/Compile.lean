import FieldRules.Condition.Tree
import FieldRules.Filter.Build
import FieldRules.Filter.Prepare

namespace FieldRules.Filter

def columnOf (name : String) (spec : RuleSpec) (defaultAlias : String) : String :=
  match Text.nonempty? spec.column with
  | some column => column
  | none =>
    Text.withoutEndDots ((Text.nonempty? spec.table).getD defaultAlias) ++ "." ++ name

structure Compiled where
  conditions : List (String × List Fragment) := []
  deriving Repr

namespace Compiled

def params (c : Compiled) : Table Value :=
  Fragment.allParams (c.conditions.flatMap Prod.snd)

def entry (i : Nat) (fragments : List Fragment) : String × Tree :=
  match fragments with
  | [f] => (toString i, .fragment f)
  | fs => ("OR" ++ toString i, .list (fs.map .fragment))

def entriesFrom : Nat → List (String × List Fragment) → List (String × Tree)
  | _, [] => []
  | i, (_, fragments) :: rest => entry i fragments :: entriesFrom (i + 1) rest

def entries (c : Compiled) : List (String × Tree) := entriesFrom 0 c.conditions

end Compiled

def filterRule? (rules : RuleMap) (name : String) (v : Value) : Option Rule :=
  if isImplicit name || v.isNull then none
  else (Table.get? rules name).filter fun r => !flag r.spec.ignoreFilter

/-- Compiles fields one after the other; `series` holds the names left for each base. -/
def compileFrom (limit : Numeral.DigitLimit) (rules : RuleMap) (defaultAlias : String) :
    Table Value → Table ParamNames → Except Fault (List (String × List Fragment))
  | [], _ => .ok []
  | (name, v) :: rest, series =>
    match filterRule? rules name v with
    | none => compileFrom limit rules defaultAlias rest series
    | some r =>
      let column := columnOf name r.spec defaultAlias
      let base := ParamNames.baseOf column
      let names := (series.get? base).getD (ParamNames.ofColumn column)
      match build limit r column v names with
      | (.error e, _) => .error e
      | (.ok fragments, names) =>
        let others := compileFrom limit rules defaultAlias rest (series.put base names)
        if fragments.isEmpty then others
        else others.map ((name, fragments) :: ·)

def compile (limit : Numeral.DigitLimit) (data : Table Value) (rules : RuleMap)
    (defaultAlias : String) : Except Fault Compiled :=
  (compileFrom limit rules defaultAlias data []).map (⟨·⟩)

end FieldRules.Filter
