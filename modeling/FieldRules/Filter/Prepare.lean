import FieldRules.Filter.Grammar

namespace FieldRules

def implicitFields : List String := ["limit", "offset", "orderBy"]

def isImplicit (name : String) : Bool := implicitFields.contains name

namespace RuleSpec

def isPlainString (r : RuleSpec) (type : Option DeclaredType) : Bool :=
  DeclaredType.base? type == some .string && !r.hasEnum && !flag r.date

def wildcardPair (wildcard : Option Value) : Value :=
  match wildcard with
  | none => .tuple [.bool true, .bool true]
  | some (.bool b) => .tuple [.bool b, .bool b]
  | some v => v

def prepared (r : RuleSpec) : RuleSpec :=
  let isBoolean := r.base? == some .boolean
  let plain := r.isPlainString r.type
  let allowed (b : Option Bool) : Option Bool := some (b.getD true)
  let ordered (b : Option Bool) : Option Bool := if isBoolean || plain then none else allowed b
  { r with
    filterType := r.type
    type := some (.known (if isBoolean then .boolean else .string))
    elementType := none
    wildcard := if plain then some (wildcardPair r.wildcard) else none
    listAllowed := if isBoolean then none else allowed r.listAllowed
    rangeAllowed := ordered r.rangeAllowed
    greaterAllowed := ordered r.greaterAllowed
    lessAllowed := ordered r.lessAllowed
    negationAllowed := allowed r.negationAllowed
    sortable := allowed r.sortable }

end RuleSpec

namespace Filter

def checkFor? (r : RuleSpec) : Option GrammarCheck :=
  if r.hasEnum then some .enum
  else if flag r.date then some .date
  else match r.base? with
    | some .string => some .string
    | some .integer => some .integer
    | some .float => some .float
    | _ => none

def chosenCheck (g? : Option Grammar) (r : Rule) : Option (Hook Check) :=
  match r.custom, g? with
  | none, some g => (checkFor? r.spec).map (·.hook g)
  | custom, _ => custom

end Filter

namespace Rule

def prepare (g? : Option Filter.Grammar) (r : Rule) : Rule :=
  if r.spec.isPrepared then r
  else { r with spec := r.spec.prepared, custom := Filter.chosenCheck g? r }

def counting (label : String) : Rule :=
  { spec := { type := some (.known .integer), label := some label } }

def sorting : Rule := { spec := { label := some "orderBy" } }

def withColumns (g? : Option Filter.Grammar) (sortable : List String) (r : Rule) : Rule :=
  let columns := Table.merge (sortable.map fun name => (name, none)) (r.spec.columns.getD [])
  { r with
    spec := { r.spec with columns := some columns }
    custom := match r.custom, g? with
      | none, some g => some (Filter.GrammarCheck.orderBy.hook g)
      | custom, _ => custom }

end Rule

namespace RuleMap

def preparedFields (g? : Option Filter.Grammar) (rules : RuleMap) : RuleMap :=
  Table.merge [("limit", Rule.counting "limit"), ("offset", Rule.counting "offset")]
    (rules.map fun (name, r) => (name, if isImplicit name then r else r.prepare g?))

def sortableNames (rules : RuleMap) : List String :=
  rules.filterMap fun (name, r) =>
    if !isImplicit name && flag r.spec.sortable then some name else none

def prepare (g? : Option Filter.Grammar) (rules : RuleMap) : RuleMap :=
  let fields := preparedFields g? rules
  let sorting := (Table.get? fields "orderBy").getD Rule.sorting
  Table.put fields "orderBy" (sorting.withColumns g? (sortableNames fields))

end RuleMap

end FieldRules
