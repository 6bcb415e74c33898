import FieldRules.Number.Numeral
import FieldRules.Value.Basic
import FieldRules.Number.Shortest
import FieldRules.Text.Quoted
import FieldRules.Text.Segment

namespace FieldRules.Value

mutual

def quoted : Value → String
  | null => "None"
  | bool b => if b then "True" else "False"
  | int n => toString n
  | float x => x.text
  | str s => Text.quoted s
  | list items => "[" ++ Text.join ", " (quotedItems items) ++ "]"
  | tuple items => match quotedItems items with
    | [s] => "(" ++ s ++ ",)"
    | all => "(" ++ Text.join ", " all ++ ")"
  | map entries => "\x7b" ++ Text.join ", " (quotedEntries entries) ++ "\x7d"
  | bytes octets => Text.quotedBytes octets
  | obj _ => "<Obj object>"

def quotedItems : List Value → List String
  | [] => []
  | v :: vs => quoted v :: quotedItems vs

def quotedEntries : List (String × Value) → List String
  | [] => []
  | (name, v) :: es => (Text.quoted name ++ ": " ++ quoted v) :: quotedEntries es

end

-- Integers are written whatever their size; those that were read within the limit on digits can be
-- written within it.
def text : Value → String
  | str s => s
  | v => v.quoted

-- A value that was computed may have more digits than can be written.
def written? : Value → Except Fault String
  | int n =>
    if Numeral.fits Numeral.digitLimit (toString n).toList then .ok (toString n)
    else .error .tooManyDigits
  | v => .ok v.text

def typed : Value → String
  | bool b => if b then "true" else "false"
  | v => v.text

end FieldRules.Value
