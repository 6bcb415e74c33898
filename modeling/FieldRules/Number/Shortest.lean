import FieldRules.Number.Binary64

namespace FieldRules.Binary64

def reachesPower (num den : Nat) (power : Int) : Bool :=
  Nat.pow 10 power.toNat * den ≤ num * Nat.pow 10 (-power).toNat

def leadingPower (num den : Nat) : Int :=
  let guess : Int := ((num.log2 : Int) - den.log2) * 30103 / 100000
  if reachesPower num den (guess + 1) then guess + 1
  else if reachesPower num den guess then guess
  else guess - 1

def roundsTo (m : Nat) (e : Int) (d : Nat) (power : Int) : Bool :=
  let low := if m = Nat.pow 2 52 ∧ leastExponent < e then 4 * m - 1 else 4 * m - 2
  let high := 4 * m + 2
  let left := 4 * d * Nat.pow 10 power.toNat * Nat.pow 2 (-e).toNat
  let unit := Nat.pow 10 (-power).toNat * Nat.pow 2 e.toNat
  if m % 2 = 0 then low * unit ≤ left && left ≤ high * unit
  else low * unit < left && left < high * unit

def gridPoint? (m : Nat) (e : Int) (power : Int) : Option Nat :=
  let num := m * Nat.pow 2 e.toNat * Nat.pow 10 (-power).toNat
  let den := Nat.pow 2 (-e).toNat * Nat.pow 10 power.toNat
  let below := num / den
  let twice := 2 * (num % den)
  match roundsTo m e below power, roundsTo m e (below + 1) power with
  | true, true =>
    some (if twice < den ∨ (twice = den ∧ below % 2 = 0) then below else below + 1)
  | true, false => some below
  | false, true => some (below + 1)
  | false, false => none

def firstGrid (m : Nat) (e : Int) (power : Int) : Nat → Nat × Int
  | 0 => ((gridPoint? m e power).getD 0, power)
  | more + 1 =>
    match gridPoint? m e power with
    | some d => (d, power)
    | none => firstGrid m e (power - 1) more

def dropZeros (d : Nat) (power : Int) : Nat → Nat × Int
  | 0 => (d, power)
  | fuel + 1 => if d % 10 = 0 ∧ d ≠ 0 then dropZeros (d / 10) (power + 1) fuel else (d, power)

def shortest (m : Nat) (e : Int) : Nat × Int :=
  let top := leadingPower (m * Nat.pow 2 e.toNat) (Nat.pow 2 (-e).toNat)
  let (d, power) := firstGrid m e top 16
  dropZeros d power 20

def powerText (n : Int) : String :=
  let ds := toString n.natAbs
  (if n < 0 then "-" else "+") ++ (if n.natAbs < 10 then "0" ++ ds else ds)

def decimalText (d : Nat) (power : Int) : String :=
  let ds := Nat.toDigits 10 d
  let point := (ds.length : Int) + power
  let zeros (n : Nat) := List.replicate n '0'
  if -4 < point ∧ point ≤ 16 then
    if 0 ≤ power then String.ofList (ds ++ zeros power.toNat ++ ['.', '0'])
    else if 0 < point then
      String.ofList (ds.take point.toNat ++ '.' :: ds.drop point.toNat)
    else String.ofList ('0' :: '.' :: zeros (-point).toNat ++ ds)
  else
    let front := match ds with
      | [] => []
      | [c] => [c]
      | c :: rest => c :: '.' :: rest
    String.ofList front ++ "e" ++ powerText (point - 1)

def text : Binary64 → String
  | nan => "nan"
  | infinite negative => if negative then "-inf" else "inf"
  | finite negative m e =>
    let body := if m = 0 then "0.0" else let (d, power) := shortest m e; decimalText d power
    if negative then "-" ++ body else body

end FieldRules.Binary64
