namespace FieldRules

/-- `finite negative m e` stands for `m * 2 ^ e` with its sign; zero has a sign too. -/
inductive Binary64 where
  | nan
  | infinite (negative : Bool)
  | finite (negative : Bool) (mantissa : Nat) (exponent : Int)
  deriving DecidableEq, Repr

namespace Binary64

def leastExponent : Int := -1074
def greatestExponent : Int := 971

def zero (negative : Bool) : Binary64 := finite negative 0 leastExponent

def roundHalfEven (num den : Nat) : Nat :=
  let q := num / den
  let r := num % den
  if 2 * r < den then q
  else if den < 2 * r then q + 1
  else if q % 2 = 0 then q else q + 1

def ofRatio (negative : Bool) (num den : Nat) : Binary64 :=
  if num = 0 then zero negative
  else
    let guess : Int := (num.log2 : Int) - den.log2 - 52
    let tight := num * Nat.pow 2 (-guess).toNat / (den * Nat.pow 2 guess.toNat) < Nat.pow 2 52
    let exponent := max (if tight then guess - 1 else guess) leastExponent
    let m := roundHalfEven (num * Nat.pow 2 (-exponent).toNat) (den * Nat.pow 2 exponent.toNat)
    let (m, exponent) := if m = Nat.pow 2 53 then (Nat.pow 2 52, exponent + 1) else (m, exponent)
    if greatestExponent < exponent then infinite negative
    else if m = 0 then zero negative
    else finite negative m exponent

def ofDecimal (negative : Bool) (digits : Nat) (power : Int) : Binary64 :=
  let size : Int := (Nat.toDigits 10 digits).length
  if digits = 0 then zero negative
  else if 310 < size + power then infinite negative
  else if size + power < -330 then zero negative
  else ofRatio negative (digits * Nat.pow 10 power.toNat) (Nat.pow 10 (-power).toNat)

def ofInt (n : Int) : Binary64 := ofRatio (n < 0) n.natAbs 1

def toRat? : Binary64 → Option Rat
  | finite negative m e =>
    let size : Rat :=
      if 0 ≤ e then (m * Nat.pow 2 e.toNat : Nat) else mkRat m (Nat.pow 2 (-e).toNat)
    some (if negative then -size else size)
  | _ => none

def isInteger : Binary64 → Bool
  | finite _ m e => 0 ≤ e || m % Nat.pow 2 (-e).toNat == 0
  | _ => false

def isZero : Binary64 → Bool
  | finite _ m _ => m == 0
  | _ => false

def takeNat : List Char → Nat → Nat × List Char
  | [], n => (n, [])
  | c :: cs, n =>
    if '0' ≤ c ∧ c ≤ '9' then takeNat cs (10 * n + (c.toNat - 48)) else (n, c :: cs)

def readUnsigned? (negative : Bool) (cs : List Char) : Option Binary64 :=
  let (whole, rest) := takeNat cs 0
  let (digits, rest', places) :=
    match rest with
    | '.' :: tail =>
      let (all, after) := takeNat tail whole
      (all, after, tail.length - after.length)
    | _ => (whole, rest, 0)
  let count := cs.length - rest.length + places
  if count = 0 then none
  else
    let power? : Option Int :=
      match rest' with
      | [] => some 0
      | c :: tail =>
        if c = 'e' ∨ c = 'E' then
          let (minus, ds) := match tail with
            | '-' :: ds => (true, ds)
            | '+' :: ds => (false, ds)
            | ds => (false, ds)
          let (n, after) := takeNat ds 0
          if ds.isEmpty || !after.isEmpty then none else some (if minus then -n else n)
        else none
    power?.map fun power => ofDecimal negative digits (power - places)

def read? (cs : List Char) : Option Binary64 :=
  let (negative, body) := match cs with
    | '-' :: body => (true, body)
    | '+' :: body => (false, body)
    | body => (false, body)
  if body = ['i', 'n', 'f'] then some (infinite negative)
  else if body = ['n', 'a', 'n'] then some nan
  else readUnsigned? negative body

end Binary64

end FieldRules
