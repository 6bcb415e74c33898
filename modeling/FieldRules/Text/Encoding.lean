namespace FieldRules.Text

def charOf? (code : Nat) : Option Char :=
  if h : code.isValidChar then some (Char.ofNatAux code h) else none

def continuation? (b : UInt8) : Option Nat :=
  if b.toNat / 64 = 2 then some (b.toNat % 64) else none

def atLeast? (least code : Nat) : Option Char := if code < least then none else charOf? code

def utf8Head? : List UInt8 → Option (Char × Nat)
  | [] => none
  | a :: rest =>
    let first := a.toNat
    if first < 0x80 then (charOf? first).map (·, 1)
    else if first < 0xc0 then none
    else if first < 0xe0 then
      match rest.take 1 |>.mapM continuation? with
      | some [b] => (atLeast? 0x80 (64 * (first % 32) + b)).map (·, 2)
      | _ => none
    else if first < 0xf0 then
      match rest.take 2 |>.mapM continuation? with
      | some [b, c] => (atLeast? 0x800 (64 * (64 * (first % 16) + b) + c)).map (·, 3)
      | _ => none
    else if first < 0xf8 then
      match rest.take 3 |>.mapM continuation? with
      | some [b, c, d] =>
        (atLeast? 0x10000 (64 * (64 * (64 * (first % 8) + b) + c) + d)).map (·, 4)
      | _ => none
    else none

/-- Characters in UTF-8; `skip` counts the octets of a character still to be passed over. -/
def utf8From : Nat → List UInt8 → Option (List Char)
  | _, [] => some []
  | skip + 1, _ :: rest => utf8From skip rest
  | 0, b :: rest =>
    match utf8Head? (b :: rest) with
    | some (c, size) => (utf8From (size - 1) rest).map (c :: ·)
    | none => none

def utf8? (octets : List UInt8) : Option (List Char) := utf8From 0 octets

def utf8Octets (s : String) : List UInt8 := s.toUTF8.toList

def wide (high : Bool) (a b : UInt8) : Nat :=
  if high then 256 * a.toNat + b.toNat else 256 * b.toNat + a.toNat

def utf16? (high : Bool) : List UInt8 → Option (List Char)
  | [] => some []
  | [_] => none
  | a :: b :: rest =>
    let unit := wide high a b
    if 0xd800 ≤ unit ∧ unit < 0xdc00 then
      match rest with
      | c :: d :: rest =>
        let low := wide high c d
        if 0xdc00 ≤ low ∧ low < 0xe000 then
          match charOf? (0x10000 + 0x400 * (unit - 0xd800) + (low - 0xdc00)) with
          | some ch => (utf16? high rest).map (ch :: ·)
          | none => none
        else none
      | _ => none
    else match charOf? unit with
      | some ch => (utf16? high rest).map (ch :: ·)
      | none => none

def utf32? (high : Bool) : List UInt8 → Option (List Char)
  | [] => some []
  | a :: b :: c :: d :: rest =>
    let code := if high then 65536 * wide high a b + wide high c d
      else 65536 * wide high c d + wide high a b
    match charOf? code with
    | some ch => (utf32? high rest).map (ch :: ·)
    | none => none
  | _ => none

def decode? (octets : List UInt8) : Option (List Char) :=
  match octets with
  | 0x00 :: 0x00 :: 0xfe :: 0xff :: rest => utf32? true rest
  | 0xff :: 0xfe :: 0x00 :: 0x00 :: rest => utf32? false rest
  | 0xfe :: 0xff :: rest => utf16? true rest
  | 0xff :: 0xfe :: rest => utf16? false rest
  | 0xef :: 0xbb :: 0xbf :: rest => utf8? rest
  | a :: b :: c :: d :: _ =>
    if a = 0 then (if b = 0 then utf32? true octets else utf16? true octets)
    else if b = 0 then
      (if c = 0 ∧ d = 0 then utf32? false octets else utf16? false octets)
    else utf8? octets
  | [a, b] =>
    if a = 0 then utf16? true octets
    else if b = 0 then utf16? false octets
    else utf8? octets
  | octets => utf8? octets

end FieldRules.Text
