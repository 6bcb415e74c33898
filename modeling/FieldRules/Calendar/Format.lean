import FieldRules.Text.Classes
import FieldRules.Text.Upper
import FieldRules.Text.Segment

namespace FieldRules.Calendar

inductive Part where
  | day | month | year | shortYear
  | monthName | shortMonthName
  | dayName | shortDayName | weekday | isoWeekday
  | yearDay | weekFromSunday | weekFromMonday | isoWeek | isoYear
  | hour | hourOfHalf | half | minute | second | fraction
  | offset | zone
  deriving DecidableEq, Repr

inductive Piece where
  | literal (c : Char)
  | blanks
  | part (p : Part)
  deriving DecidableEq, Repr

def directive? : Char → Option (List Piece)
  | 'd' => some [.part .day]
  | 'm' => some [.part .month]
  | 'Y' => some [.part .year]
  | 'y' => some [.part .shortYear]
  | 'B' => some [.part .monthName]
  | 'b' => some [.part .shortMonthName]
  | 'A' => some [.part .dayName]
  | 'a' => some [.part .shortDayName]
  | 'w' => some [.part .weekday]
  | 'u' => some [.part .isoWeekday]
  | 'j' => some [.part .yearDay]
  | 'U' => some [.part .weekFromSunday]
  | 'W' => some [.part .weekFromMonday]
  | 'V' => some [.part .isoWeek]
  | 'G' => some [.part .isoYear]
  | 'H' => some [.part .hour]
  | 'I' => some [.part .hourOfHalf]
  | 'p' => some [.part .half]
  | 'M' => some [.part .minute]
  | 'S' => some [.part .second]
  | 'f' => some [.part .fraction]
  | 'z' => some [.part .offset]
  | 'Z' => some [.part .zone]
  | '%' => some [.literal '%']
  | 'x' => some [.part .month, .literal '/', .part .day, .literal '/', .part .shortYear]
  | 'X' => some [.part .hour, .literal ':', .part .minute, .literal ':', .part .second]
  | 'c' => some [.part .shortDayName, .blanks, .part .shortMonthName, .blanks, .part .day,
      .blanks, .part .hour, .literal ':', .part .minute, .literal ':', .part .second, .blanks,
      .part .year]
  | _ => none

def pieces? : List Char → Option (List Piece)
  | [] => some []
  | ['%'] => none
  | '%' :: c :: cs =>
    match directive? c, pieces? cs with
    | some ps, some rest => some (ps ++ rest)
    | _, _ => none
  | c :: cs =>
    match pieces? cs with
    | none => none
    | some rest =>
      if Text.isBlank c then
        some (if rest.head? = some .blanks then rest else .blanks :: rest)
      else some (.literal c :: rest)

def parts (pieces : List Piece) : List Part :=
  pieces.filterMap fun
    | .part p => some p
    | _ => none

inductive Slot where
  | between (first last : Char)
  | digit
  | letter (c : Char)
  deriving DecidableEq, Repr

def Slot.takes : Slot → Char → Bool
  | between first last, c => first ≤ c && c ≤ last
  | digit, c => Text.isAnyDigit c
  | letter l, c => Text.lowerPlain c == l

def takeSlots? : List Slot → List Char → Option (List Char × List Char)
  | [], cs => some ([], cs)
  | _ :: _, [] => none
  | s :: ss, c :: cs =>
    if s.takes c then (takeSlots? ss cs).map fun (taken, rest) => (c :: taken, rest) else none

def only (c : Char) : Slot := .between c c

def name (s : String) : List Slot := s.toList.map .letter

def monthNames : List String :=
  ["january", "february", "march", "april", "may", "june", "july", "august", "september",
    "october", "november", "december"]

def shortMonthNames : List String :=
  ["jan", "feb", "mar", "apr", "may", "jun", "jul", "aug", "sep", "oct", "nov", "dec"]

def dayNames : List String :=
  ["monday", "tuesday", "wednesday", "thursday", "friday", "saturday", "sunday"]

def shortDayNames : List String := ["mon", "tue", "wed", "thu", "fri", "sat", "sun"]

def fractionDigits (slot : Slot) : List (List Slot) :=
  [6, 5, 4, 3, 2, 1].map fun n => List.replicate n slot

def offsetForms : List (List Slot) :=
  let pair : List Slot := [.between '0' '5', .digit]
  let tails (colon : List Slot) : List (List Slot) :=
    (fractionDigits .digit).map (fun f => colon ++ pair ++ only '.' :: f) ++ [colon ++ pair]
  let rest := tails [only ':'] ++ tails [] ++ [[]]
  let signed (sign : Char) (colon : List Slot) :=
    rest.map fun t => only sign :: .digit :: .digit :: (colon ++ pair ++ t)
  let forms (colon : List Slot) := signed '+' colon ++ signed '-' colon
  forms [only ':'] ++ forms [] ++ [[only 'Z']]

def forms : Part → List (List Slot)
  | .day => [[only '3', .between '0' '1'], [.between '1' '2', .digit], [only '0', .between '1' '9'],
      [.between '1' '9'], [only ' ', .between '1' '9']]
  | .month | .hourOfHalf => [[only '1', .between '0' '2'], [only '0', .between '1' '9'],
      [.between '1' '9']]
  | .year | .isoYear => [[.digit, .digit, .digit, .digit]]
  | .shortYear => [[.digit, .digit]]
  | .monthName => monthNames.map name
  | .shortMonthName => shortMonthNames.map name
  | .dayName => dayNames.map name
  | .shortDayName => shortDayNames.map name
  | .weekday => [[.between '0' '6']]
  | .isoWeekday => [[.between '1' '7']]
  | .yearDay => [[only '3', only '6', .between '0' '6'], [only '3', .between '0' '5', .digit],
      [.between '1' '2', .digit, .digit], [only '0', .between '1' '9', .digit],
      [only '0', only '0', .between '1' '9'], [.between '1' '9', .digit],
      [only '0', .between '1' '9'], [.between '1' '9']]
  | .weekFromSunday | .weekFromMonday => [[only '5', .between '0' '3'], [.between '0' '4', .digit],
      [.digit]]
  | .isoWeek => [[only '5', .between '0' '3'], [only '0', .between '1' '9'],
      [.between '1' '4', .digit], [.digit]]
  | .hour => [[only '2', .between '0' '3'], [.between '0' '1', .digit], [.digit]]
  | .half => [name "am", name "pm"]
  | .minute => [[.between '0' '5', .digit], [.digit]]
  | .second => [[only '6', .between '0' '1'], [.between '0' '5', .digit], [.digit]]
  | .fraction => fractionDigits (.between '0' '9')
  | .offset => offsetForms
  | .zone => [name "utc", name "gmt"]

def sameLetter (a b : Char) : Bool := a == b || Text.capital a == Text.capital b ||
  Text.upperChar a == Text.upperChar b

def takeBlanks : List Char → List (List Char)
  | [] => []
  | c :: cs => if Text.isBlank c then takeBlanks cs ++ [cs] else []

def read? : List Piece → List Char → Option (List (Part × List Char) × List Char)
  | [], cs => some ([], cs)
  | .literal l :: ps, cs =>
    match cs with
    | [] => none
    | c :: cs => if sameLetter l c then read? ps cs else none
  | .blanks :: ps, cs => (takeBlanks cs).findSome? (read? ps)
  | .part p :: ps, cs =>
    (forms p).findSome? fun form =>
      match takeSlots? form cs with
      | none => none
      | some (taken, rest) => (read? ps rest).map fun (found, after) => ((p, taken) :: found, after)

end FieldRules.Calendar
