import FieldRules.Value.Basic
import FieldRules.Number.Numeral
import FieldRules.Text.Classes

namespace FieldRules

structure JsonText where
  text : String
  broken : Bool := false
  deriving DecidableEq, Repr

inductive Json where
  | null
  | bool (b : Bool)
  | int (n : Int)
  | float (x : Binary64)
  | text (t : JsonText)
  | list (items : List Json)
  | object (entries : List (JsonText × Json))
  deriving Repr

namespace Json

mutual

def toValue : Json → Value
  | null => .null
  | bool b => .bool b
  | int n => .int n
  | float x => .float x
  | text t => .str t.text
  | list items => .list (itemValues items)
  | object entries => .map (Table.ofEntries (entryValues entries))

def itemValues : List Json → List Value
  | [] => []
  | j :: js => j.toValue :: itemValues js

def entryValues : List (JsonText × Json) → List (String × Value)
  | [] => []
  | (name, j) :: es => (name.text, j.toValue) :: entryValues es

end

def isBroken : Json → Bool
  | text t => t.broken
  | _ => false

end Json

end FieldRules

namespace FieldRules.Json

def isSpace (c : Char) : Bool := c == ' ' || c == '\t' || c == '\n' || c == '\r'

def skipSpace (cs : List Char) : List Char := cs.dropWhile isSpace

inductive TextUnit where
  | plain (c : Char)
  | code (n : Nat)
  deriving DecidableEq, Repr

def escaped? : Char → Option Char
  | '"' => some '"'
  | '\\' => some '\\'
  | '/' => some '/'
  | 'b' => some '\x08'
  | 'f' => some '\x0c'
  | 'n' => some '\n'
  | 'r' => some '\r'
  | 't' => some '\t'
  | _ => none

def units? : List Char → Option (List TextUnit × List Char)
  | [] => none
  | '"' :: cs => some ([], cs)
  | '\\' :: 'u' :: a :: b :: c :: d :: cs =>
    match [a, b, c, d].mapM Text.hexValue? with
    | some digits =>
      let n := digits.foldl (fun n d => 16 * n + d) 0
      (units? cs).map fun (us, rest) => (.code n :: us, rest)
    | none => none
  | '\\' :: c :: cs =>
    match escaped? c with
    | some e => (units? cs).map fun (us, rest) => (.plain e :: us, rest)
    | none => none
  | c :: cs =>
    if c.toNat < 0x20 ∨ c = '\\' then none
    else (units? cs).map fun (us, rest) => (.plain c :: us, rest)

def isHigh (n : Nat) : Bool := 0xd800 ≤ n && n < 0xdc00

def isLow (n : Nat) : Bool := 0xdc00 ≤ n && n < 0xe000

def joined : List TextUnit → List Char × Bool
  | [] => ([], false)
  | .plain c :: us => (c :: (joined us).1, (joined us).2)
  | [.code n] => if isHigh n || isLow n then (['\uFFFD'], true) else ([Char.ofNat n], false)
  | .code n :: u :: us =>
    match u with
    | .code m =>
      if isHigh n && isLow m then
        (Char.ofNat (0x10000 + 0x400 * (n - 0xd800) + (m - 0xdc00)) :: (joined us).1,
          (joined us).2)
      else if isHigh n || isLow n then ('\uFFFD' :: (joined (u :: us)).1, true)
      else (Char.ofNat n :: (joined (u :: us)).1, (joined (u :: us)).2)
    | .plain _ =>
      if isHigh n || isLow n then ('\uFFFD' :: (joined (u :: us)).1, true)
      else (Char.ofNat n :: (joined (u :: us)).1, (joined (u :: us)).2)

def text? (cs : List Char) : Option (JsonText × List Char) :=
  (units? cs).map fun (us, rest) =>
    (⟨String.ofList (joined us).1, (joined us).2⟩, rest)

def digits (cs : List Char) : List Char × List Char := cs.span Text.isDigit

def whole? (cs : List Char) : Option (List Char × List Char) :=
  match cs with
  | '0' :: rest => some (['0'], rest)
  | cs => match digits cs with
    | ([], _) => none
    | found => some found

def fraction (cs : List Char) : List Char × List Char :=
  match cs with
  | '.' :: tail => match digits tail with
    | ([], _) => ([], cs)
    | (ds, rest) => ('.' :: ds, rest)
  | cs => ([], cs)

def power (cs : List Char) : List Char × List Char :=
  match cs with
  | [] => ([], cs)
  | e :: tail =>
    if e = 'e' ∨ e = 'E' then
      let (sign, tail) := match tail with
        | '+' :: tail => (['+'], tail)
        | '-' :: tail => (['-'], tail)
        | tail => ([], tail)
      match digits tail with
      | ([], _) => ([], cs)
      | (ds, rest) => (e :: sign ++ ds, rest)
    else ([], cs)

def number? (sign cs : List Char) : Option (Json × List Char) :=
  match whole? cs with
  | none => none
  | some (ds, rest) =>
    let (places, rest) := fraction rest
    let (tens, rest) := power rest
    if places.isEmpty && tens.isEmpty then
      match Numeral.readInt Numeral.digitLimit (sign ++ ds) with
      | .ok n => some (.int n, rest)
      | .error _ => none
    else (Binary64.read? (sign ++ ds ++ places ++ tens)).map fun x => (.float x, rest)

def named : List (List Char × Json) := [
  ("null".toList, .null),
  ("true".toList, .bool true),
  ("false".toList, .bool false),
  ("NaN".toList, .float .nan),
  ("Infinity".toList, .float (.infinite false)),
  ("-Infinity".toList, .float (.infinite true))]

def scalar? (cs : List Char) : Option (Json × List Char) :=
  match named.findSome? fun (name, j) => (Text.dropMark? name cs).map (j, ·) with
  | some found => some found
  | none => match cs with
    | '-' :: cs => number? ['-'] cs
    | cs => number? [] cs

-- A text that is no document.
def malformed : Fault := .badValue none

def required {α : Type} (found : Option α) : Except Fault α := found.elim (.error malformed) .ok

def inside {α : Type} (depth : Nat) (read : Nat → Except Fault α) : Except Fault α :=
  match depth with
  | 0 => .error .tooDeep
  | depth + 1 => read depth

mutual

/-- A document at the front, read from left to right; every step into it spends fuel. -/
def value : Nat → Nat → List Char → Except Fault (Json × List Char)
  | 0, _, _ => .error malformed
  | fuel + 1, depth, cs =>
    match cs with
    | '"' :: cs => (required (text? cs)).map fun (t, rest) => (.text t, rest)
    | '[' :: cs => inside depth fun depth => match skipSpace cs with
      | ']' :: rest => .ok (.list [], rest)
      | cs => (items fuel depth cs).map fun (items, rest) => (.list items, rest)
    | '\x7b' :: cs => inside depth fun depth => match skipSpace cs with
      | '\x7d' :: rest => .ok (.object [], rest)
      | cs => (entries fuel depth cs).map fun (entries, rest) => (.object entries, rest)
    | cs => required (scalar? cs)

def items : Nat → Nat → List Char → Except Fault (List Json × List Char)
  | 0, _, _ => .error malformed
  | fuel + 1, depth, cs =>
    match value fuel depth cs with
    | .error fault => .error fault
    | .ok (j, rest) => match skipSpace rest with
      | ']' :: rest => .ok ([j], rest)
      | ',' :: rest =>
        (items fuel depth (skipSpace rest)).map fun (js, rest) => (j :: js, rest)
      | _ => .error malformed

def entries : Nat → Nat → List Char → Except Fault (List (JsonText × Json) × List Char)
  | 0, _, _ => .error malformed
  | fuel + 1, depth, cs =>
    match cs with
    | '"' :: cs => match text? cs with
      | none => .error malformed
      | some (name, rest) => match skipSpace rest with
        | ':' :: rest => match value fuel depth (skipSpace rest) with
          | .error fault => .error fault
          | .ok (j, rest) => match skipSpace rest with
            | '\x7d' :: rest => .ok ([(name, j)], rest)
            | ',' :: rest =>
              (entries fuel depth (skipSpace rest)).map fun (es, rest) => ((name, j) :: es, rest)
            | _ => .error malformed
        | _ => .error malformed
    | _ => .error malformed

end

def read (depth : Nat) (cs : List Char) : Except Fault Json :=
  match value (2 * cs.length + 2) depth (skipSpace cs) with
  | .error fault => .error fault
  | .ok (j, rest) => if (skipSpace rest).isEmpty then .ok j else .error malformed

end FieldRules.Json
