import FieldRules.Search.Order

namespace FieldRules.Search

structure Query where
  table : String
  select : Option String := none
  condition : Option Composite := none
  params : Table Value := []
  order : List String := []
  limit : Value := .null
  offset : Value := .null
  groupBy : Option String := none
  deriving Repr

namespace Query

def selection (q : Query) : String := (Text.nonempty? q.select).getD q.table

def whereText? (q : Query) : Option String := q.condition.map Composite.text

def orderText? (q : Query) : Option String := clause? q.order

end Query

def conditionTree (c : Filter.Compiled) (extra : Option Tree) : Tree :=
  match extra.filter Tree.truthy with
  | some t => .map (c.entries ++ [("AND" ++ toString c.entries.length, t)])
  | none => .map c.entries

def query (limit : Numeral.DigitLimit) (data : Table Value) (rules : RuleMap) (table : String)
    (select : Option String) (extra : Option Tree) (groupBy : Option String) :
    Except Fault Query :=
  match Filter.compile limit data rules table with
  | .error e => .error e
  | .ok compiled =>
    match (conditionTree compiled extra).compose with
    | .error e => .error e
    | .ok condition =>
      let value (name : String) : Value := (data.get? name).getD .null
      let atMost := value "limit"
      (orderBy (value "orderBy") rules table).map fun order =>
        { table, select, condition, order, groupBy, limit := atMost
          params := compiled.params.merge ((condition.map Composite.params).getD [])
          offset := if atMost.truthy then value "offset" else .null }

end FieldRules.Search
