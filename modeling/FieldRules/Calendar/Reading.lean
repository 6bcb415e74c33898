import FieldRules.Calendar.Format

namespace FieldRules.Calendar

def leap (year : Nat) : Bool := year % 4 == 0 && (year % 100 != 0 || year % 400 == 0)

def daysInYear (year : Nat) : Nat := if leap year then 366 else 365

def daysInMonth (year month : Nat) : Nat :=
  match month with
  | 1 | 3 | 5 | 7 | 8 | 10 | 12 => 31
  | 4 | 6 | 9 | 11 => 30
  | 2 => if leap year then 29 else 28
  | _ => 0

def validYear (year : Nat) : Bool := 1 ≤ year && year ≤ 9999

def validDate (year month day : Nat) : Bool :=
  validYear year && 1 ≤ day && day ≤ daysInMonth year month

def daysBefore (year : Nat) : Nat :=
  365 * (year - 1) + (year - 1) / 4 - (year - 1) / 100 + (year - 1) / 400

def firstWeekday (year : Nat) : Nat := daysBefore year % 7

def monthDay (year : Nat) : Nat → Nat → Nat → Nat × Nat
  | 0, month, day => (month, day)
  | fuel + 1, month, day =>
    if day ≤ daysInMonth year month then (month, day)
    else monthDay year fuel (month + 1) (day - daysInMonth year month)

def dateOf (year n : Nat) : Nat × Nat × Nat :=
  if n ≤ daysInYear year then (year, monthDay year 11 1 n)
  else (year + 1, monthDay (year + 1) 11 1 (n - daysInYear year))


structure Reading where
  year : Option Nat := none
  month : Nat := 1
  day : Nat := 1
  second : Nat := 0
  isoYear : Option Nat := none
  isoWeek : Option Nat := none
  week : Option Nat := none
  weekStartsMonday : Bool := true
  weekday : Option Nat := none
  yearDay : Option Nat := none
  zoneExists : Bool := true

def position (names : List String) (cs : List Char) : Nat :=
  names.idxOf (String.ofList (cs.map Text.lowerPlain))

def offsetExists (cs : List Char) : Bool :=
  match cs with
  | _ :: h :: h' :: rest =>
    let (colon, rest) := match rest with
      | ':' :: rest => (true, rest)
      | _ => (false, rest)
    let seconds := rest.drop 2
    let consistent := seconds.isEmpty || (seconds.head? == some ':') == colon
    consistent && Text.readDigits [h, h'] < 24
  | _ => true

def Reading.note (r : Reading) (part : Part) (cs : List Char) : Reading :=
  let n := Text.readDigits (cs.filter (· != ' '))
  match part with
  | .day => { r with day := n }
  | .month => { r with month := n }
  | .year => { r with year := some n }
  | .shortYear => { r with year := some (if n ≤ 68 then 2000 + n else 1900 + n) }
  | .monthName => { r with month := position monthNames cs + 1 }
  | .shortMonthName => { r with month := position shortMonthNames cs + 1 }
  | .dayName => { r with weekday := some (position dayNames cs) }
  | .shortDayName => { r with weekday := some (position shortDayNames cs) }
  | .weekday => { r with weekday := some ((n + 6) % 7) }
  | .isoWeekday => { r with weekday := some (n - 1) }
  | .yearDay => { r with yearDay := some n }
  | .weekFromSunday => { r with week := some n, weekStartsMonday := false }
  | .weekFromMonday => { r with week := some n, weekStartsMonday := true }
  | .isoWeek => { r with isoWeek := some n }
  | .isoYear => { r with isoYear := some n }
  | .second => { r with second := n }
  | .offset => { r with zoneExists := offsetExists cs }
  | _ => r

def dayOfWeek (year week weekday : Nat) (startsMonday : Bool) : Int :=
  let shift := if startsMonday then 0 else 1
  let first := (firstWeekday year + shift) % 7
  let day := (weekday + shift) % 7
  if week = 0 then 1 + day - first else 1 + ((7 - first) % 7 + 7 * (week - 1) : Nat) + day

def dayOfIsoWeek (year week weekday : Nat) : Nat × Int :=
  let correction : Int := (firstWeekday year + 3) % 7 + 1 + 3
  let n : Int := week * 7 + (weekday + 1) - correction
  if n < 1 then (year - 1, n + daysBefore year - daysBefore (year - 1)) else (year, n)

def Reading.exists (r : Reading) : Bool :=
  if !r.zoneExists then false
  else if r.isoYear.isSome && (r.yearDay.isSome || r.isoWeek.isNone || r.weekday.isNone) then false
  else if r.isoYear.isNone && r.isoWeek.isSome then false
  else
    let leapDay := r.year.isNone && r.month == 2 && r.day == 29
    let year := r.year.getD (if leapDay then 1904 else 1900)
    let placed : Option (Nat × Int) :=
      match r.yearDay, r.weekday with
      | some n, _ => some (year, (n : Int))
      | none, some weekday =>
        match r.week, r.isoYear, r.isoWeek with
        | some week, _, _ => some (year, dayOfWeek year week weekday r.weekStartsMonday)
        | none, some isoYear, some week => some (dayOfIsoWeek isoYear week weekday)
        | _, _, _ => none
      | none, none => none
    let finish (date : Nat × Nat × Nat) : Bool :=
      validDate (if leapDay then 1900 else date.1) date.2.1 date.2.2 && r.second ≤ 59
    match placed with
    | none => validDate year r.month r.day && finish (year, r.month, r.day)
    | some (y, n) =>
      let (y, n) := if n ≤ 0 ∧ r.yearDay.isNone then (y - 1, n + daysInYear (y - 1)) else (y, n)
      validYear year && r.isoYear.all validYear && validYear y && 1 ≤ n &&
        finish (dateOf y n.toNat)

def isDate? (text format : List Char) : Option Bool :=
  match pieces? format with
  | none => some false
  | some pieces =>
    if ¬(parts pieces).Nodup then none
    else match read? pieces text with
      | some (found, []) =>
        some (found.foldl (fun (r : Reading) f => r.note f.1 f.2) {}).exists
      | _ => some false

end FieldRules.Calendar
