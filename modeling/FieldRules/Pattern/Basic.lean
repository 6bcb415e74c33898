import FieldRules.Text.Classes
import FieldRules.Text.Lower
import FieldRules.Text.Segment

namespace FieldRules

-- The letters that a class of characters or a comparison knows: those of ASCII or of every script.
inductive Alphabet where
  | plain
  | every
  deriving DecidableEq, Repr

namespace Alphabet

def isDigit : Alphabet → Char → Bool
  | plain, c => Text.isDigit c
  | every, c => Text.isAnyDigit c

def isBlank : Alphabet → Char → Bool
  | plain, c => c == ' ' || ('\t' ≤ c && c ≤ '\r')
  | every, c => Text.isBlank c

def isWord : Alphabet → Char → Bool
  | plain, c => c == '_' || Text.isPlainWord c
  | every, c => Text.isWord c

def small : Alphabet → Nat → Nat
  | plain, n => Text.plainSmall n
  | every, n => Text.small n

def casings : Alphabet → Nat → List Nat
  | plain, n => Text.plainCasings n
  | every, n => Text.casings n

end Alphabet

inductive CharSet where
  | between (first last : Nat)
  | digit (letters : Alphabet)
  | blank (letters : Alphabet)
  | word (letters : Alphabet)
  | none
  | union (a b : CharSet)
  | compl (a : CharSet)
  deriving DecidableEq, Repr

def CharSet.single (c : Char) : CharSet := between c.toNat c.toNat

def CharSet.has (fold : Option Alphabet) : CharSet → Char → Bool
  | between first last, c =>
    (fold.elim [c.toNat] (·.casings c.toNat)).any fun n => first ≤ n && n ≤ last
  | digit letters, c => letters.isDigit c
  | blank letters, c => letters.isBlank c
  | word letters, c => letters.isWord c
  | none, _ => false
  | union a b, c => a.has fold c || b.has fold c
  | compl a, c => !a.has fold c

-- Which of several repetitions is tried first; a possessive one gives nothing back.
inductive Manner where
  | greedy
  | reluctant
  | possessive
  deriving DecidableEq, Repr

inductive Pattern where
  | empty
  | one (fold : Option Alphabet) (set : CharSet)
  | seq (a b : Pattern)
  | alt (a b : Pattern)
  | repeated (manner : Manner) (p : Pattern) (least : Nat) (most : Option Nat)
  | textStart
  | textEnd
  | lineStart
  | lineEnd
  | lastLineEnd
  | wordEdge (letters : Alphabet) (inside : Bool)
  | look (behind : Option Nat) (found : Bool) (p : Pattern)
  | atomic (p : Pattern)
  | group (name : Nat) (p : Pattern)
  | again (fold : Option Alphabet) (name : Nat)
  | given (name : Nat) (yes no : Pattern)
  deriving DecidableEq, Repr

namespace Pattern

-- Where a group began last and where it ended last; in between it can have begun once more.
structure Mark where
  start : Nat
  stop : Option Nat
  deriving DecidableEq, Repr

structure Spot where
  place : Nat
  before : List Char
  after : List Char
  marks : List (Nat × Mark) := []
  deriving DecidableEq, Repr

namespace Spot

def first (cs : List Char) : Spot := { place := 0, before := [], after := cs }

def step (s : Spot) (c : Char) (rest : List Char) : Spot :=
  { s with place := s.place + 1, before := c :: s.before, after := rest }

def onwards (place : Nat) (before : List Char) : List Char → List Spot
  | [] => [{ place, before, after := [] }]
  | c :: cs => { place, before, after := c :: cs } :: onwards (place + 1) (c :: before) cs

def back? (s : Spot) : Nat → Option Spot
  | 0 => some s
  | n + 1 => match s.before with
    | [] => none
    | c :: cs => back? { s with place := s.place - 1, before := cs, after := c :: s.after } n

def bare (s : Spot) : Bool := s.before.isEmpty && s.after.isEmpty

def atEdge (letters : Alphabet) (s : Spot) : Bool :=
  (s.before.head?.any letters.isWord) != (s.after.head?.any letters.isWord)

def marked (s : Spot) (name : Nat) (mark : Mark) : Spot :=
  { s with marks := (name, mark) :: s.marks.filter (·.1 != name) }

def opened (s : Spot) (name : Nat) : Spot :=
  s.marked name ⟨s.place, (s.marks.lookup name).bind Mark.stop⟩

def closed (s : Spot) (name : Nat) : Spot :=
  s.marked name ⟨((s.marks.lookup name).map Mark.start).getD s.place, some s.place⟩

def group? (s : Spot) (name : Nat) : Option (List Char) :=
  match s.marks.lookup name with
  | some ⟨start, some stop⟩ =>
    if start ≤ stop then
      some (((s.before.reverse ++ s.after).drop start).take (stop - start))
    else none
  | _ => none

-- What follows once a text is passed over.
def pass? (fold : Option Alphabet) (s : Spot) : List Char → Option Spot
  | [] => some s
  | c :: cs => match s.after with
    | [] => none
    | d :: rest =>
      let same := match fold with
        | none => c == d
        | some letters => letters.small c.toNat == letters.small d.toNat
      if same then pass? fold (s.step d rest) cs else none

end Spot

-- A matcher goes on to what is left of the pattern and comes back when that fails.
abbrev Matcher := Spot → (Spot → Option Spot) → Option Spot

def times (step : Matcher) : Nat → Matcher
  | 0, s, k => k s
  | n + 1, s, k => step s fun t => times step n t k

-- Up to a number of further rounds. None begins where the round before it began, so a round
-- that takes nothing is the last one.
def more (step : Matcher) (eager : Bool) : Nat → Option Nat → Matcher
  | 0, _, s, k => k s
  | n + 1, last, s, k =>
    if last = some s.place then k s
    else if eager then
      (step s fun t => more step eager n (some s.place) t k) <|> k s
    else k s <|> step s fun t => more step eager n (some s.place) t k

def utmost (first : Spot → Option Spot) : Nat → Option Nat → Spot → Spot
  | 0, _, s => s
  | n + 1, last, s =>
    if last = some s.place then s
    else match first s with
      | some t => utmost first n (some s.place) t
      | none => s

def rounds (least : Nat) (most : Option Nat) (s : Spot) : Nat :=
  match most with
  | none => s.after.length + 2
  | some n => min (n - least) (s.after.length + 2)

def run : Pattern → Matcher
  | empty, s, k => k s
  | one fold set, s, k => match s.after with
    | [] => none
    | c :: cs => if set.has fold c then k (s.step c cs) else none
  | seq a b, s, k => run a s fun t => run b t k
  | alt a b, s, k => run a s k <|> run b s k
  | repeated manner p least most, s, k =>
    if manner = .possessive then
      (times (run p) least s some).bind fun t =>
        k (utmost (fun s => run p s some) (rounds least most t) none t)
    else times (run p) least s fun t =>
      more (run p) (manner = .greedy) (rounds least most t) none t k
  | textStart, s, k => if s.place = 0 then k s else none
  | textEnd, s, k => if s.after = [] then k s else none
  | lineStart, s, k => if s.place = 0 ∨ s.before.head? = some '\n' then k s else none
  | lineEnd, s, k => if s.after = [] ∨ s.after.head? = some '\n' then k s else none
  | lastLineEnd, s, k => if s.after = [] ∨ s.after = ['\n'] then k s else none
  | wordEdge letters inside, s, k =>
    if s.atEdge letters = inside ∧ ¬s.bare then k s else none
  | look behind found p, s, k =>
    match (s.back? (behind.getD 0)).bind fun t => run p t some with
    | some t => if found then k { s with marks := t.marks } else none
    | none => if found then none else k s
  | atomic p, s, k => (run p s some).bind k
  | group name p, s, k => run p (s.opened name) fun t => k (t.closed name)
  | again fold name, s, k => (s.group? name).bind fun cs => (s.pass? fold cs).bind k
  | given name yes no, s, k => if (s.group? name).isSome then run yes s k else run no s k

def found (p : Pattern) (cs : List Char) : Bool :=
  (Spot.onwards 0 [] cs).any fun s => (run p s some).isSome

end Pattern

end FieldRules
