import FieldRules.Condition.Composite

namespace FieldRules

inductive Tree where
  | leaf (v : Value)
  | fragment (f : Fragment)
  | group (c : Composite)
  | list (items : List Tree)
  | map (entries : List (String × Tree))
  deriving Repr, Inhabited

namespace Tree

def truthy : Tree → Bool
  | leaf v => v.truthy
  | fragment _ => true
  | group c => !c.parts.isEmpty
  | list items => !items.isEmpty
  | map entries => !entries.isEmpty

def connective? (name : String) : Option Connective :=
  Connective.ofText? (String.ofList (Text.trimEnd Text.isDigit name.toList))

def grouped (kind : Connective) : List Part → List Part
  | [] => []
  | parts => [.group kind parts]

def entryParts (kind? : Option Connective) (t : Tree) (inside : Except Fault (List Part)) :
    Except Fault (List Part) :=
  if !t.truthy then .ok []
  else match kind?, t with
    | some kind, _ => inside.map (grouped kind)
    | none, list _ => inside.map (grouped .and)
    | none, map _ => inside.map (grouped .and)
    | none, leaf v => .ok [.leaf v]
    | none, fragment f => .ok [.fragment f]
    | none, group c => .ok [c.toPart]

def leafParts (v : Value) : Except Fault (List Part) :=
  match v.elements? with
  | some items => .ok ((items.filter Value.truthy).map .leaf)
  | none => .error .wrongKind

mutual

def parts : Tree → Except Fault (List Part)
  | leaf v => leafParts v
  | fragment _ => .error .wrongKind
  | group _ => .error .wrongKind
  | list items => itemParts items
  | map entries => namedParts entries

def itemParts : List Tree → Except Fault (List Part)
  | [] => .ok []
  | t :: ts =>
    match entryParts none t (parts t) with
    | .error e => .error e
    | .ok ps => (itemParts ts).map (ps ++ ·)

def namedParts : List (String × Tree) → Except Fault (List Part)
  | [] => .ok []
  | (name, t) :: es =>
    match entryParts (connective? name) t (parts t) with
    | .error e => .error e
    | .ok ps => (namedParts es).map (ps ++ ·)

end

def compose (t : Tree) : Except Fault (Option Composite) :=
  if !t.truthy then .ok none
  else match parts t with
    | .error e => .error e
    | .ok [] => .ok none
    | .ok ps => .ok (some ⟨.and, ps⟩)

end Tree

end FieldRules
