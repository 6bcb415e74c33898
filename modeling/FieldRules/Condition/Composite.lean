import FieldRules.Value.Basic
import FieldRules.Fault
import FieldRules.Text.Segment
import FieldRules.Value.Written

namespace FieldRules

structure Fragment where
  expression : String
  params : Table Value := []
  deriving Repr, BEq

def Fragment.allParams (fragments : List Fragment) : Table Value :=
  fragments.foldl (fun t f => t.merge f.params) []


inductive Connective where
  | and
  | or
  deriving DecidableEq, Repr

namespace Connective

def text : Connective → String
  | and => "AND"
  | or => "OR"

def ofText? : String → Option Connective
  | "AND" => some and
  | "OR" => some or
  | _ => none

end Connective

inductive Part where
  | leaf (v : Value)
  | fragment (f : Fragment)
  | group (kind : Connective) (parts : List Part)
  deriving Repr, Inhabited

structure Composite where
  kind : Connective := .and
  parts : List Part := []
  deriving Repr

def joinedText (kind : Connective) : List String → String
  | [s] => s
  | all => "(" ++ Text.join (") " ++ kind.text ++ " (") all ++ ")"

namespace Part

mutual

def text : Part → String
  | leaf v => v.text
  | fragment f => f.expression
  | group kind parts => joinedText kind (texts parts)

def texts : List Part → List String
  | [] => []
  | p :: ps => text p :: texts ps

end

mutual

def bind : Part → Table Value → Table Value
  | leaf _, t => t
  | fragment f, t => t.merge f.params
  | group _ parts, t => t.merge (bindAll parts [])

def bindAll : List Part → Table Value → Table Value
  | [], t => t
  | p :: ps, t => bindAll ps (bind p t)

end

def isVoid : Part → Bool
  | leaf .null => true
  | leaf (.str s) => s == ""
  | group _ [] => true
  | _ => false

end Part

namespace Composite

def add (c : Composite) (p : Part) : Composite :=
  if p.isVoid then c else { c with parts := c.parts ++ [p] }

def make (kind : String) (parts : List Part) : Except Fault Composite :=
  match Connective.ofText? kind with
  | some k => .ok (parts.foldl add { kind := k })
  | none => .error (.unsupportedConnective kind)

def text (c : Composite) : String := joinedText c.kind (Part.texts c.parts)

def params (c : Composite) : Table Value := Part.bindAll c.parts []

def toPart (c : Composite) : Part := .group c.kind c.parts

end Composite

end FieldRules
