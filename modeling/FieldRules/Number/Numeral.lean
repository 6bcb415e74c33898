import FieldRules.Number.Binary64
import FieldRules.Text.Segment
import FieldRules.Value.Basic
import FieldRules.Fault

namespace FieldRules.Numeral

def isNatural : List Char → Bool
  | [] => false
  | c :: cs => (c == '0' && cs.isEmpty) || (c != '0' && Text.isDigit c && cs.all Text.isDigit)

def withoutPluses (cs : List Char) : List Char := cs.dropWhile (· == '+')

def isSigned : List Char → Bool
  | '-' :: cs => isNatural cs && cs != ['0']
  | cs => isNatural cs

def isInt (cs : List Char) : Bool := isSigned (withoutPluses cs)

def isUnsignedDecimal (cs : List Char) : Bool :=
  match Text.cutAt '.' cs with
  | (whole, none) => isNatural whole
  | (whole, some places) => isNatural whole && places.all Text.isDigit

def isDecimal (cs : List Char) : Bool :=
  match withoutPluses cs with
  | '-' :: cs => isUnsignedDecimal cs
  | cs => isUnsignedDecimal cs

def natOf (cs : List Char) : Nat := cs.foldl (fun n c => 10 * n + (c.toNat - 48)) 0

def intOf (cs : List Char) : Int :=
  match withoutPluses cs with
  | '-' :: cs => -(natOf cs : Int)
  | cs => natOf cs

/-- The greatest number of digits of an integer that is read; none where there is no bound. -/
abbrev DigitLimit := Option Nat

def digitLimit : DigitLimit := some 4300

def fits (limit : DigitLimit) (cs : List Char) : Bool :=
  limit.all ((cs.filter Text.isDigit).length ≤ ·)

def readInt (limit : DigitLimit) (cs : List Char) : Except Fault Int :=
  if fits limit cs then .ok (intOf cs) else .error .tooManyDigits

def decimalOf (cs : List Char) : Binary64 :=
  (Binary64.read? (withoutPluses cs)).getD .nan

def trueTexts : List String := ["1", "t", "true"]

def truthTexts : List String := trueTexts ++ ["0", "f", "false"]

end FieldRules.Numeral
