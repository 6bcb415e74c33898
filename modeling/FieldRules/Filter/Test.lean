import FieldRules.Text.Segment
import FieldRules.Filter.Grammar
import FieldRules.Condition.Composite

namespace FieldRules

structure ParamNames where
  base : String
  counter : Nat := 1
  deriving DecidableEq, Repr

namespace ParamNames

def baseOf (column : String) : String :=
  ":" ++ String.ofList (column.toList.filter Text.isPlainWord)

def ofColumn (column : String) : ParamNames := { base := baseOf column }

def name (n : ParamNames) (i : Nat) : String := n.base ++ toString (n.counter + i)

def advance (n : ParamNames) (k : Nat) : ParamNames := { n with counter := n.counter + k }

def take (n : ParamNames) (count : Nat) : List String := (List.range count).map n.name

end ParamNames

end FieldRules

namespace FieldRules.Filter

/-- The value bound for a text of a filter: the number it spells when the filter's type is a
    number and the text is canonical, else the text. Dates stay texts. -/
def boundText (limit : Numeral.DigitLimit) (spec : RuleSpec) (s : String) : Except Fault Value :=
  if flag spec.date then .ok (.str s)
  else match spec.effectiveBase? with
    | some .integer =>
      if Numeral.isInt s.toList then (Numeral.readInt limit s.toList).map .int
      else .ok (.str s)
    | some .float =>
      if Numeral.isDecimal s.toList then .ok (.float (Numeral.decimalOf s.toList))
      else .ok (.str s)
    | _ => .ok (.str s)

def boundValue (limit : Numeral.DigitLimit) (spec : RuleSpec) (v : Value) : Except Fault Value :=
  match v with
  | .str s => boundText limit spec s
  | v => .ok v

def boundAll (limit : Numeral.DigitLimit) (spec : RuleSpec) : List String → Except Fault (List Value)
  | [] => .ok []
  | s :: rest => match boundText limit spec s with
    | .error e => .error e
    | .ok v => (boundAll limit spec rest).map (v :: ·)

def isPlain (spec : RuleSpec) : Bool :=
  spec.effectiveBase? == some .string && !spec.hasEnum && !flag spec.date

def items (spec : RuleSpec) (v : Value) : Except Fault (List String) :=
  match v.items? with
  | some vs => .ok (vs.map Value.typed)
  | none =>
    if !flag spec.listAllowed then .ok [v.typed]
    else if isPlain spec then rowOf v.typed
    else .ok (Text.pieces v.typed ',')


inductive Comparator where
  | atMost
  | atLeast
  | below
  | above
  deriving DecidableEq, Repr

namespace Comparator

def text : Comparator → String
  | atMost => "<="
  | atLeast => ">="
  | below => "<"
  | above => ">"

def isInclusive : Comparator → Bool
  | atMost => true
  | atLeast => true
  | _ => false

def allowed (spec : RuleSpec) : Comparator → Bool
  | atMost => flag spec.lessAllowed
  | below => flag spec.lessAllowed
  | atLeast => flag spec.greaterAllowed
  | above => flag spec.greaterAllowed

end Comparator

inductive Match where
  | range (low high : List Char)
  | compare (c : Comparator) (bound : List Char)
  | negation (rest : List Char)
  | wildcard (front back : Bool) (text : List Char)
  deriving DecidableEq, Repr

namespace Match

def name : Match → String
  | range .. => "range"
  | compare c _ => if c.isInclusive then "inclusive_comparison" else "exclusive_comparison"
  | negation _ => "negation"
  | wildcard .. => "wildcard"

def draws : Match → Nat
  | range .. => 2
  | _ => 1

/-- A comparison mark at the front that the rule allows. A longer mark that the rule refuses is
    not taken for a shorter one. -/
def comparison? (spec : RuleSpec) (cs : List Char) : Option Match :=
  let found (c : Comparator) (rest : List Char) : Option Match :=
    if c.allowed spec then some (.compare c rest) else none
  match cs with
  | '<' :: '=' :: rest => found .atMost rest
  | '>' :: '=' :: rest => found .atLeast rest
  | '<' :: rest => found .below rest
  | '>' :: rest => found .above rest
  | _ => none

def wildcard? (ends : Bool × Bool) (cs : List Char) : Option Match :=
  let front := ends.1 && cs.head? == some '%'
  let back := ends.2 && cs.getLast? == some '%'
  if front || back then
    let text := if front then cs.drop 1 else cs
    some (.wildcard front back (if back then text.dropLast else text))
  else none

def find? (spec : RuleSpec) (single : Bool) (cs : List Char) : Except Fault (Option Match) :=
  match (if flag spec.rangeAllowed then Text.cutAt '|' cs else (cs, none)) with
  | (low, some high) => .ok (some (.range low high))
  | (_, none) =>
    match comparison? spec cs with
    | some m => .ok (some m)
    | none =>
      if single && flag spec.negationAllowed && cs.head? == some '!' then
        .ok (some (.negation (cs.drop 1)))
      else if cs.length ≤ 1 then .ok none
      else (wildcardEnds spec.wildcard).map fun ends => wildcard? ends cs

end Match

inductive Test where
  | between (low high : Value)
  | compare (c : Comparator) (v : Value)
  | equal (negated : Bool) (v : Value)
  | among (negated : Bool) (vs : List Value)
  | like (pattern : List Char)
  deriving Repr

def likePattern (front back : Bool) (text : List Char) : List Char :=
  (if front then ['%'] else []) ++ Text.replace ['%'] ['\\', '%'] text ++
    (if back then ['%'] else [])

def Match.test (limit : Numeral.DigitLimit) (spec : RuleSpec) (m : Match) : Except Fault Test :=
  let bound (cs : List Char) := boundText limit spec (String.ofList cs)
  match m with
  | .range low high =>
    match bound low, bound high with
    | .ok l, .ok h => .ok (.between l h)
    | .error e, _ => .error e
    | _, .error e => .error e
  | .compare c cs => (bound cs).map (.compare c)
  | .negation cs => (bound cs).map (.equal true)
  | .wildcard front back text => .ok (.like (likePattern front back text))

def negatedItems (spec : RuleSpec) : List String → Bool × List String
  | [] => (false, [])
  | s :: rest =>
    match flag spec.negationAllowed, s.toList with
    | true, '!' :: cs => (true, String.ofList cs :: rest)
    | _, _ => (false, s :: rest)

def equality (limit : Numeral.DigitLimit) (spec : RuleSpec) (asList : Bool) (items : List String) :
    Except Fault Test :=
  let (negated, bare) := negatedItems spec items
  match bare, asList with
  | [s], false => (boundText limit spec s).map (.equal negated)
  | bare, _ => (boundAll limit spec bare).map (.among negated)

namespace Test

def leftSide (column : String) : Test → String
  | like _ => "UPPER(UNACCENT(" ++ column ++ "))"
  | _ => column

def rightSide (p q : String) : Test → String
  | between .. => "BETWEEN " ++ p ++ " AND " ++ q
  | compare c _ => c.text ++ " " ++ p
  | equal negated _ => (if negated then "<>" else "=") ++ " " ++ p
  | among negated _ => (if negated then "NOT IN" else "IN") ++ " (" ++ p ++ ")"
  | like _ => "LIKE UPPER(UNACCENT(" ++ p ++ "))"

def params (p q : String) : Test → Table Value
  | between low high => [(p, low), (q, high)]
  | compare _ v => [(p, v)]
  | equal _ v => [(p, v)]
  | among _ vs => [(p, .list vs)]
  | like pattern => [(p, .str (String.ofList pattern))]

end Test

def rangeOperands (operand : Value) (column : String) : Except Fault (String × String) :=
  match operand with
  | .tuple (low :: high :: _) => .ok (low.text, high.text)
  | .tuple _ => .error .outOfRange
  | .str s => .ok (s, s)
  | _ => .ok (column, column)

inductive Operation where
  | rightSide (text : String)
  | whole (text : String)
  deriving DecidableEq, Repr

def Test.operation (spec : RuleSpec) (column p q : String) (t : Test) : Except Fault Operation :=
  match t, spec.avoidBetween.filter Value.truthy with
  | .between .., some operand =>
    (rangeOperands operand column).map fun (low, high) =>
      .whole (p ++ " <= " ++ low ++ " AND " ++ q ++ " >= " ++ high)
  | t, _ => .ok (.rightSide (t.rightSide p q))

def Test.fragment (spec : RuleSpec) (column p q : String) (t : Test) : Except Fault Fragment :=
  (t.operation spec column p q).map fun
    | .whole text => ⟨text, t.params p q⟩
    | .rightSide text => ⟨t.leftSide column ++ " " ++ text, t.params p q⟩

def Test.inTemplate (spec : RuleSpec) (template column p q : String) (t : Test) :
    Except Fault Fragment :=
  (t.operation spec column p q).map fun
    | .whole text => ⟨text, t.params p q⟩
    | .rightSide text =>
      ⟨Text.replaced template "{OPERATION_VALUE}" text, t.params p q⟩

end FieldRules.Filter
