import FieldRules.Number.Binary64
import FieldRules.Value.Basic
import FieldRules.Text.Segment

namespace FieldRules

inductive Amount where
  | none
  | below
  | exact (q : Rat)
  | above
  deriving DecidableEq, Repr

namespace Amount

def ofInt (n : Int) : Amount := exact n

def ofBinary64 (x : Binary64) : Amount :=
  match x with
  | .nan => none
  | .infinite negative => if negative then below else above
  | .finite .. => match x.toRat? with
    | some q => exact q
    | Option.none => none

def same : Amount → Amount → Bool
  | none, _ => false
  | a, b => a == b

def atMost : Amount → Amount → Bool
  | none, _ => false
  | _, none => false
  | below, _ => true
  | _, above => true
  | exact p, exact q => p ≤ q
  | _, _ => false

def lessThan (a b : Amount) : Bool := atMost a b && !same a b

end Amount

end FieldRules

namespace FieldRules.Value

def amount? : Value → Option Amount
  | bool b => some (Amount.ofInt (if b then 1 else 0))
  | int n => some (Amount.ofInt n)
  | float x => some (Amount.ofBinary64 x)
  | _ => none

def samePlain (a b : Value) : Bool :=
  match a, b with
  | null, null => true
  | str s, str t => s == t
  | bytes s, bytes t => s == t
  | _, _ => match a.amount?, b.amount? with
    | some x, some y => x.same y
    | _, _ => false

mutual

def same : Value → Value → Bool
  | list xs, list ys => sameItems xs ys
  | tuple xs, tuple ys => sameItems xs ys
  | map es, map fs => es.length == fs.length && sameEntries es fs
  | a, b => samePlain a b

def sameItems : List Value → List Value → Bool
  | [], [] => true
  | x :: xs, y :: ys => same x y && sameItems xs ys
  | _, _ => false

def sameEntries : List (String × Value) → List (String × Value) → Bool
  | [], _ => true
  | (name, v) :: es, fs =>
    (match Table.get? fs name with
      | some w => same v w
      | none => false) && sameEntries es fs

end

def isKey : Value → Bool
  | list _ => false
  | map _ => false
  | tuple items => go items
  | _ => true
where
  go : List Value → Bool
    | [] => true
    | v :: vs => isKey v && go vs

def atMost? (a b : Value) : Option Bool :=
  match a, b with
  | str s, str t => some (s ≤ t)
  | _, _ => match a.amount?, b.amount? with
    | some x, some y => some (x.atMost y)
    | _, _ => none

def lessThan? (a b : Value) : Option Bool :=
  match a, b with
  | str s, str t => some (s < t)
  | _, _ => match a.amount?, b.amount? with
    | some x, some y => some (x.lessThan y)
    | _, _ => none

/-- Whether a value is among those that another holds: an item of an array, a name of a map or a
    part of a text. Nothing is said when the other holds nothing of the kind. -/
def among? (v : Value) : Value → Option Bool
  | list items => some (items.any (same · v))
  | tuple items => some (items.any (same · v))
  | str s => match v with
    | str part => some (Text.mentions s part)
    | _ => none
  | map entries => if v.isKey then some (entries.any fun e => same (str e.1) v) else none
  | _ => none

end FieldRules.Value
