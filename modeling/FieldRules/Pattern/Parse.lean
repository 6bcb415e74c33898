import FieldRules.Fault
import FieldRules.Pattern.Basic

namespace FieldRules

namespace Pattern

inductive Token where
  | plain (c : Char)
  | escaped (c : Char)
  | cut
  deriving DecidableEq, Repr

def tokens : List Char → List Token
  | [] => []
  | ['\\'] => [.cut]
  | '\\' :: c :: cs => .escaped c :: tokens cs
  | c :: cs => .plain c :: tokens cs

inductive Flag where
  | fold
  | lines
  | all
  | free
  | template
  | letters (known : Alphabet)
  deriving DecidableEq, Repr

def Flag.ofChar? : Char → Option Flag
  | 'i' => some fold
  | 'm' => some lines
  | 's' => some all
  | 'x' => some free
  | 't' => some template
  | 'a' => some (letters .plain)
  | 'u' => some (letters .every)
  | _ => none

def Flag.choosesLetters : Flag → Bool
  | letters _ => true
  | _ => false

-- How the elements at hand are read.
structure Modes where
  fold : Bool := false
  lines : Bool := false
  all : Bool := false
  free : Bool := false
  letters : Alphabet := .every
  deriving Repr

namespace Modes

def folding (m : Modes) : Option Alphabet := if m.fold then some m.letters else none

def switch (m : Modes) (on : Bool) : Flag → Modes
  | .fold => { m with fold := on }
  | .lines => { m with lines := on }
  | .all => { m with all := on }
  | .free => { m with free := on }
  | .template => m
  | .letters known => { m with letters := known }

def ofFlags (flags : List Flag) : Modes := flags.foldl (switch · true) {}

end Modes

structure Width where
  least : Nat
  most : Option Nat
  deriving DecidableEq, Repr

namespace Width

def plus (a b : Width) : Width := ⟨a.least + b.least, a.most.bind fun n => b.most.map (n + ·)⟩

def join (a b : Width) : Width :=
  ⟨min a.least b.least, a.most.bind fun n => b.most.map (max n)⟩

def times (a : Width) (least : Nat) (most : Option Nat) : Width :=
  ⟨a.least * least, if a.most = some 0 then some 0 else a.most.bind fun n => most.map (n * ·)⟩

end Width

def width (groups : List (Nat × Width)) : Pattern → Width
  | one .. => ⟨1, some 1⟩
  | seq a b => (width groups a).plus (width groups b)
  | alt a b => (width groups a).join (width groups b)
  | repeated _ p least most => (width groups p).times least most
  | atomic p => width groups p
  | group _ p => width groups p
  | again _ name => (groups.lookup name).getD ⟨0, some 0⟩
  | given _ yes no => (width groups yes).join (width groups no)
  | _ => ⟨0, some 0⟩

-- What is left to read, and what the groups read so far are. `shut` is the number of groups that
-- the outermost look behind may refer to.
structure Source where
  tokens : List Token
  flags : List Flag := []
  opened : Nat := 0
  names : List (List Char × Nat) := []
  widths : List (Nat × Width) := []
  shut : Option Nat := none
  asked : List Nat := []
  uneven : Bool := false
  repeats : Bool := false

abbrev Reader := StateT Source (Except Fault)

def broken {α : Type} : Reader α := throw .brokenPattern

def peek : Reader (Option Token) := do return (← get).tokens.head?

def advance : Reader Unit := do
  modify fun s => { s with tokens := s.tokens.tail }
  if (← peek) = some .cut then broken

def next : Reader (Option Token) := do
  let token ← peek
  advance
  return token

def skip (c : Char) : Reader Bool := do
  if (← peek) = some (.plain c) then
    advance
    return true
  return false

def takeUpTo (p : Char → Bool) : Nat → Reader (List Char)
  | 0 => return []
  | n + 1 => do
    match ← peek with
    | some (.plain c) =>
      if p c then
        advance
        return c :: (← takeUpTo p n)
      return []
    | _ => return []

def takeWhile (p : Char → Bool) : Reader (List Char) := do
  takeUpTo p (← get).tokens.length

def takeUntil (mark : Char) : Nat → Reader (List Char)
  | 0 => broken
  | n + 1 => do
    match ← next with
    | some (.plain c) => if c = mark then return [] else return c :: (← takeUntil mark n)
    | some (.escaped c) => return '\\' :: c :: (← takeUntil mark n)
    | _ => broken

def nameUntil (mark : Char) : Reader (List Char) := do
  let name ← takeUntil mark ((← get).tokens.length + 1)
  if name.isEmpty then broken else return name

-- An element of a sequence; edges and repetitions cannot be repeated.
structure Item where
  pattern : Pattern
  fixed : Bool := false

def Item.ofSet (m : Modes) (set : CharSet) : Item := ⟨one m.folding set, false⟩

def Item.ofCode (m : Modes) (n : Nat) : Item := .ofSet m (.between n n)

-- The items stand last first.
def sequence (items : List Item) : Pattern :=
  items.foldl (fun p i => match p with
    | empty => i.pattern
    | p => seq i.pattern p) empty

def isOctal (c : Char) : Bool := '0' ≤ c && c ≤ '7'

def octal (cs : List Char) : Nat := cs.foldl (fun n c => 8 * n + (c.toNat - 48)) 0

def hexadecimal (cs : List Char) : Nat :=
  cs.foldl (fun n c => 16 * n + (Text.hexValue? c).getD 0) 0

def namedCode? : Char → Option Nat
  | 'a' => some 0x07
  | 'f' => some 0x0c
  | 'n' => some 0x0a
  | 'r' => some 0x0d
  | 't' => some 0x09
  | 'v' => some 0x0b
  | '\\' => some 0x5c
  | _ => none

def namedSet? (letters : Alphabet) : Char → Option CharSet
  | 'd' => some (.digit letters)
  | 'D' => some (.compl (.digit letters))
  | 's' => some (.blank letters)
  | 'S' => some (.compl (.blank letters))
  | 'w' => some (.word letters)
  | 'W' => some (.compl (.word letters))
  | _ => none

def namedEdge? (letters : Alphabet) : Char → Option Pattern
  | 'A' => some textStart
  | 'Z' => some textEnd
  | 'b' => some (wordEdge letters true)
  | 'B' => some (wordEdge letters false)
  | _ => none

def codeOf (digits : Nat) : Reader Nat := do
  let cs ← takeUpTo (fun c => (Text.hexValue? c).isSome) digits
  let n := hexadecimal cs
  if cs.length = digits ∧ n ≤ 0x10ffff then return n else broken

-- A character given by its code, or by itself if it is no letter or digit. Names of characters are
-- not known.
def escapedCode (c : Char) : Reader Nat :=
  match c with
  | 'x' => codeOf 2
  | 'u' => codeOf 4
  | 'U' => codeOf 8
  | c => if Text.isPlainWord c then broken else return c.toNat

-- Refers to a group that is closed, and inside a look behind to one that came before it.
def refer (name : Nat) : Reader Unit := do
  if ((← get).widths.lookup name).isNone then broken

def referBehind (name : Nat) : Reader Unit := do
  if let some shut := (← get).shut then
    refer name
    if shut < name then broken

def reference (m : Modes) (name : Nat) : Reader Item := do
  refer name
  referBehind name
  return ⟨again m.folding name, false⟩

-- One or two digits refer to a group, three octal ones are a code.
def numbered (m : Modes) (c : Char) : Reader Item := do
  match ← takeUpTo Text.isDigit 1 with
  | [] => reference m (c.toNat - 48)
  | ds =>
    let more ← if (c :: ds).all isOctal then takeUpTo isOctal 1 else pure []
    if more.isEmpty then reference m (Text.readDigits (c :: ds))
    else
      let code := octal (c :: ds ++ more)
      if code ≤ 0o377 then return .ofCode m code else broken

def escape (m : Modes) (c : Char) : Reader Item := do
  match namedSet? m.letters c, namedEdge? m.letters c, namedCode? c with
  | some set, _, _ => return .ofSet m set
  | none, some edge, _ => return ⟨edge, true⟩
  | none, none, some code => return .ofCode m code
  | none, none, none =>
    if c = '0' then return .ofCode m (octal (← takeUpTo isOctal 2))
    else if Text.isDigit c then numbered m c
    else return .ofCode m (← escapedCode c)

-- Inside a set a member is one character or a class.
def member (m : Modes) : Token → Reader (Nat ⊕ CharSet)
  | .plain c => return .inl c.toNat
  | .escaped c => do
    match namedSet? m.letters c, namedCode? c with
    | some set, _ => return .inr set
    | none, some code => return .inl code
    | none, none =>
      if c = 'b' then return .inl 0x08
      else if isOctal c then
        let code := octal (c :: (← takeUpTo isOctal 2))
        if code ≤ 0o377 then return .inl code else broken
      else return .inl (← escapedCode c)
  | .cut => broken

def memberSet : Nat ⊕ CharSet → CharSet
  | .inl n => .between n n
  | .inr set => set

def joined (found : Option CharSet) (set : CharSet) : CharSet := found.elim set (.union · set)

def setBody (m : Modes) : Nat → Option CharSet → Reader CharSet
  | 0, _ => broken
  | fuel + 1, found => do
    match ← next, found with
    | none, _ => broken
    | some (.plain ']'), some set => return set
    | some token, found =>
      let a ← member m token
      if ← skip '-' then
        match ← next with
        | none => broken
        | some (.plain ']') => return joined found (.union (memberSet a) (.single '-'))
        | some token =>
          match a, ← member m token with
          | .inl low, .inl high =>
            if low ≤ high then setBody m fuel (some (joined found (.between low high)))
            else broken
          | _, _ => broken
      else setBody m fuel (some (joined found (memberSet a)))

def setOf (m : Modes) : Reader CharSet := do
  let negated ← skip '^'
  let body ← setBody m ((← get).tokens.length + 1) none
  return if negated then .compl body else body

def greatestCount : Nat := 4294967295

-- A count of too many digits cannot be read, and one that is too large is refused.
def count (digits : List Char) : Reader Nat := do
  if 4300 < digits.length then throw .tooManyDigits
  let n := Text.readDigits digits
  if greatestCount ≤ n then throw .tooLarge
  return n

-- Bounds after an opening brace, which is a character where they do not have the right form.
def bounds? : Reader (Option (Nat × Option Nat)) := do
  if (← peek) = some (.plain '}') then return none
  let before ← get
  let low ← takeWhile Text.isDigit
  let high ← if ← skip ',' then takeWhile Text.isDigit else pure low
  if ← skip '}' then
    let least ← if low.isEmpty then pure 0 else count low
    if high.isEmpty then return some (least, none)
    let most ← count high
    if most < least then broken
    return some (least, some most)
  set before
  return none

def manner : Reader Manner := do
  if ← skip '?' then return .reluctant
  if ← skip '+' then return .possessive
  return .greedy

def repeatLast (items : List Item) (least : Nat) (most : Option Nat) : Reader (List Item) := do
  match items with
  | [] => broken
  | item :: more =>
    if item.fixed then broken
    let manner ← manner
    modify fun s => { s with repeats := true }
    return ⟨repeated manner item.pattern least most, true⟩ :: more

def flagOf (c : Char) : Reader Flag := do
  match Flag.ofChar? c with
  | some flag => return flag
  | none => broken

def flagsOn : Nat → List Flag → Char → Reader (List Flag × Char)
  | 0, _, _ => broken
  | fuel + 1, flags, c => do
    let flag ← flagOf c
    if flag.choosesLetters && flags.any (fun f => f.choosesLetters && f ≠ flag) then broken
    match ← next with
    | some (.plain d) =>
      if d = ')' ∨ d = '-' ∨ d = ':' then return (flag :: flags, d)
      else flagsOn fuel (flag :: flags) d
    | _ => broken

def flagsOff : Nat → List Flag → Reader (List Flag)
  | 0, _ => broken
  | fuel + 1, flags => do
    match ← next with
    | some (.plain d) =>
      if d = ':' ∧ flags ≠ [] then return flags
      let flag ← flagOf d
      if flag.choosesLetters then broken
      flagsOff fuel (flag :: flags)
    | _ => broken

-- Flags for a whole pattern, or those that a group turns on and off.
def flags (c : Char) : Reader (List Flag ⊕ (List Flag × List Flag)) := do
  let fuel := (← get).tokens.length + 1
  let (on, mark) ← if c = '-' then pure ([], '-') else flagsOn fuel [] c
  if mark = ')' then return .inl on
  if on.contains .template then broken
  let off ← if mark = '-' then flagsOff fuel [] else pure []
  if off.contains .template || off.any on.contains then broken
  return .inr (on, off)

def openGroup (name : Option (List Char)) : Reader Nat := do
  let s ← get
  let n := s.opened + 1
  match name with
  | none => modify fun s => { s with opened := n }
  | some name =>
    if (s.names.lookup name).isSome then broken
    modify fun s => { s with opened := n, names := (name, n) :: s.names }
  return n

def closeGroup (n : Nat) (p : Pattern) : Reader Item := do
  modify fun s => { s with widths := (n, p.width s.widths) :: s.widths }
  return ⟨group n p, false⟩

def expect (c : Char) : Reader Unit := do
  unless ← skip c do broken

def named : Reader Nat := do
  let name ← nameUntil ')'
  match (← get).names.lookup name with
  | some n => return n
  | none => broken

def greatestGroup : Nat := 1073741823

-- A number as the name of a group: digits with single underscores between them, blanks around.
def number? (cs : List Char) : Option Nat :=
  let cs := Text.trimEnd Text.isBlank (cs.dropWhile Text.isBlank)
  let cs := match cs with
    | '+' :: rest => rest
    | cs => cs
  let parts := Text.splitOn '_' cs
  let digits := parts.flatten
  if parts.all (fun part => !part.isEmpty && part.all Text.isAnyDigit) ∧ digits.length ≤ 4300 then
    some (Text.readDigits digits)
  else none

-- The group that a condition asks for, by its name or its number.
def condition : Reader Nat := do
  let name ← nameUntil ')'
  let s ← get
  let n ← if Text.isName name then
      match s.names.lookup name with
      | some n => pure n
      | none => broken
    else match number? name with
      | some n =>
        if n = 0 ∨ greatestGroup ≤ n then broken
        modify fun s => { s with asked := n :: s.asked }
        pure n
      | none => broken
  referBehind n
  return n

def looked (behind found : Bool) (p : Pattern) : Reader Item := do
  if !behind then return ⟨look none found p, false⟩
  let w := p.width (← get).widths
  if w.most ≠ some w.least ∨ greatestCount < w.least then
    modify fun s => { s with uneven := true }
  return ⟨look (some w.least) found p, false⟩

def isFreeBlank (c : Char) : Bool := c == ' ' || ('\t' ≤ c && c ≤ '\r')

mutual

def alternatives (m : Modes) (outer : Bool) : Nat → Reader Pattern
  | 0 => broken
  | fuel + 1 => do
    let p ← items fuel m outer []
    if ← skip '|' then
      let flags := (← get).flags
      return alt p (← rest (if outer then .ofFlags flags else m) fuel)
    return p

def rest (m : Modes) : Nat → Reader Pattern
  | 0 => broken
  | fuel + 1 => do
    let p ← items fuel m false []
    if ← skip '|' then return alt p (← rest m fuel)
    return p

def body (m : Modes) : Nat → Reader Pattern
  | 0 => broken
  | fuel + 1 => do
    let p ← alternatives m false fuel
    expect ')'
    return p

def items : Nat → Modes → Bool → List Item → Reader Pattern
  | 0, _, _, _ => broken
  | fuel + 1, m, first, found => do
    match ← peek with
    | none => return sequence found
    | some (.plain '|') => return sequence found
    | some (.plain ')') => return sequence found
    | some .cut => broken
    | some (.escaped c) =>
      advance
      items fuel m first ((← escape m c) :: found)
    | some (.plain c) =>
      advance
      if m.free && isFreeBlank c then items fuel m first found
      else if m.free && c = '#' then
        remark fuel '\n'
        items fuel m first found
      else match c with
      | '[' => items fuel m first (.ofSet m (← setOf m) :: found)
      | '.' =>
        items fuel m first (⟨one none (if m.all then .compl .none else .compl (.single '\n')),
          false⟩ :: found)
      | '^' => items fuel m first (⟨if m.lines then lineStart else textStart, true⟩ :: found)
      | '$' => items fuel m first (⟨if m.lines then lineEnd else lastLineEnd, true⟩ :: found)
      | '*' => items fuel m first (← repeatLast found 0 none)
      | '+' => items fuel m first (← repeatLast found 1 none)
      | '?' => items fuel m first (← repeatLast found 0 (some 1))
      | '{' =>
        match ← bounds? with
        | some (least, most) => items fuel m first (← repeatLast found least most)
        | none => items fuel m first (.ofCode m c.toNat :: found)
      | '(' =>
        if ← skip '?' then special fuel m first found
        else
          let n ← openGroup none
          items fuel m first ((← closeGroup n (← body m fuel)) :: found)
      | c => items fuel m first (.ofCode m c.toNat :: found)

def remark : Nat → Char → Reader Unit
  | 0, _ => broken
  | fuel + 1, mark => do
    match ← next with
    | none => if mark = ')' then broken
    | some token => unless token = .plain mark do remark fuel mark

def special : Nat → Modes → Bool → List Item → Reader Pattern
  | 0, _, _, _ => broken
  | fuel + 1, m, first, found => do
    match ← next with
    | some (.plain c) => match c with
      | 'P' =>
        if ← skip '<' then
          let name ← nameUntil '>'
          unless Text.isName name do broken
          let n ← openGroup (some name)
          items fuel m first ((← closeGroup n (← body m fuel)) :: found)
        else if ← skip '=' then
          items fuel m first ((← reference m (← named)) :: found)
        else broken
      | ':' => items fuel m first (⟨← body m fuel, false⟩ :: found)
      | '>' => items fuel m first (⟨atomic (← body m fuel), false⟩ :: found)
      | '#' =>
        remark fuel ')'
        items fuel m first found
      | '=' => items fuel m first ((← looked false true (← body m fuel)) :: found)
      | '!' => items fuel m first ((← looked false false (← body m fuel)) :: found)
      | '<' =>
        let positive ← skip '='
        unless positive do expect '!'
        let outermost := (← get).shut
        modify fun s => { s with shut := s.shut.or (some s.opened) }
        let p ← body m fuel
        modify fun s => { s with shut := outermost }
        items fuel m first ((← looked true positive p) :: found)
      | '(' =>
        let n ← condition
        let yes ← items fuel m false []
        let no ← if ← skip '|' then items fuel m false [] else pure empty
        expect ')'
        items fuel m first (⟨given n yes no, false⟩ :: found)
      | c =>
        match ← flags c with
        | .inl on =>
          unless first && found.isEmpty do broken
          modify fun s => { s with flags := s.flags ++ on }
          items fuel (.ofFlags (← get).flags) first found
        | .inr (on, off) =>
          let inner := off.foldl (Modes.switch · false) (on.foldl (Modes.switch · true) m)
          items fuel m first (⟨← body inner fuel, false⟩ :: found)
    | _ => broken

end

-- Flags that choose both alphabets contradict each other, which is no mistake in the writing.
def whole (fuel : Nat) : Reader Pattern := do
  if (← peek) = some .cut then broken
  let p ← alternatives {} true fuel
  let s ← get
  if s.flags.contains (.letters .plain) && s.flags.contains (.letters .every) then
    throw (.badValue none)
  if !s.tokens.isEmpty || s.asked.any (s.opened < ·) then broken
  if s.uneven || s.repeats && s.flags.contains .template then broken
  return p

def read (cs : List Char) : Except Fault Pattern :=
  let tokens := tokens cs
  (whole (3 * tokens.length + 4)).run' { tokens }

end Pattern

-- A pattern as a rule declares it, and what searching a text for it comes to.
structure Regex where
  written : Value
  search : String → Except Fault Bool

namespace Regex

instance : BEq Regex := ⟨fun a b => a.written == b.written⟩

instance : Repr Regex := ⟨fun r => reprPrec r.written⟩

def ofText (written : String) : Regex :=
  let pattern := Pattern.read written.toList
  ⟨.str written, fun text => pattern.map (·.found text.toList)⟩

def ofValue : Value → Regex
  | .str written => ofText written
  | v => ⟨v, fun _ => .error .wrongKind⟩

end Regex

end FieldRules
