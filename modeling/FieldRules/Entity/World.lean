import FieldRules.Fault
import FieldRules.Text.Segment

namespace FieldRules

structure EntityClass where
  name : String
  lineage : List String
  own : Table Value := []
  fields : Option (Table Value) := none
  deriving Repr

structure Entity where
  className : String
  attributes : Table Value
  deriving Repr

-- What is accessed: an entity, or a class itself.
inductive Subject where
  | entity (name : String)
  | classItself (name : String)
  deriving DecidableEq, Repr

structure Store where
  classes : Table EntityClass
  entities : Table Entity := []
  deriving Repr

namespace Store

def root : EntityClass := { name := "object", lineage := ["object"] }

def classOf (store : Store) (name : String) : EntityClass :=
  (store.classes.get? name).getD { name, lineage := [name, "object"] }

def subjectClass (store : Store) : Subject → EntityClass
  | .entity name =>
    store.classOf (((store.entities.get? name).map Entity.className).getD "object")
  | .classItself name => store.classOf name

def classAttribute? (store : Store) (c : EntityClass) (name : String) : Option Value :=
  c.lineage.findSome? fun n => (store.classOf n).own.get? name

def attribute? (store : Store) (s : Subject) (name : String) : Option Value :=
  match s with
  | .entity e => match (store.entities.get? e).bind (·.attributes.get? name) with
    | some v => some v
    | none => store.classAttribute? (store.subjectClass s) name
  | .classItself _ => store.classAttribute? (store.subjectClass s) name

def write (store : Store) (s : Subject) (name : String) (v : Value) : Store :=
  match s with
  | .entity e => match store.entities.get? e with
    | some entity =>
      let written := { entity with attributes := entity.attributes.put name v }
      { store with entities := store.entities.put e written }
    | none => store
  | .classItself c =>
    let old := store.classOf c
    let written := { old with own := old.own.put name v }
    { store with classes := store.classes.put c written }

def closed? (store : Store) (s : Subject) : Option Fault :=
  if (store.subjectClass s).name = root.name then
    match s with
    | .classItself _ => some .wrongKind
    | .entity _ => some .noAttribute
  else none

-- A class is of the kind of classes.
def kindName (store : Store) : Subject → String
  | .classItself _ => "type"
  | s => (store.subjectClass s).name

end Store

/-- How a field is read and written. Either may fail, and a write that fails may have changed the
    store before it did. -/
structure Accessor where
  getter : Store → Subject → Except Fault Value
  setter : Option (Store → Subject → Value → Except Fault Unit × Store) := none
  label : Option String := none

namespace Accessor

def readAttribute (name : String) (store : Store) (s : Subject) : Except Fault Value :=
  match store.attribute? s name with
  | some v => .ok v
  | none => .error .noAttribute

def writeAttribute (name : String) (store : Store) (s : Subject) (v : Value) :
    Except Fault Unit × Store :=
  match store.closed? s with
  | some fault => (.error fault, store)
  | none => (.ok (), store.write s name v)

def ofAttribute (name : String) (writable : Bool) (label : Option String) : Accessor where
  getter := readAttribute name
  setter := if writable then some (writeAttribute name) else none
  label

end Accessor

structure World extends Store where
  registered : Table (Table Accessor) := []

namespace World

def initial : World := { classes := [("object", Store.root)] }

def declareClass (w : World) (name : String) (base : Option String)
    (own : Option (Table Value)) : World :=
  let parent := w.classOf (base.getD "object")
  let fields := match own with
    | none => parent.fields
    | some own => some ((parent.fields.getD []).merge own)
  let declared : EntityClass :=
    { name, lineage := name :: parent.lineage, own := own.getD [], fields }
  { w with classes := w.classes.put name declared }

def create (w : World) (variableName className : String) : World :=
  let entity : Entity := ⟨className, (w.classOf className).fields.getD []⟩
  { w with entities := w.entities.put variableName entity }

def register (w : World) (className : String) (accessors : Table Accessor) : World :=
  { w with registered := w.registered.put className accessors }

def fieldAccessors (c : EntityClass) (labels : Table String) : Except Fault (Table Accessor) :=
  match c.fields with
  | none => .error (.misdeclared (.notARecord c.name))
  | some fields => .ok (fields.names.map fun n => (n, .ofAttribute n true (labels.get? n)))

def accessors (w : World) (c : EntityClass) : Table Accessor :=
  c.lineage.reverse.foldl (fun t name => t.merge ((w.registered.get? name).getD [])) []

def accessorsOf (w : World) (s : Subject) : Except Fault (Table Accessor) :=
  let c := w.subjectClass s
  let all := w.accessors c
  if all.isEmpty then .error (.misdeclared (.noAccessors c.name)) else .ok all

def accessor (w : World) (s : Subject) (name : String) : Except Fault Accessor :=
  match w.accessorsOf s with
  | .error e => .error e
  | .ok all => match all.get? name with
    | some a => .ok a
    | none => .error (.misdeclared (.unknownField (w.subjectClass s).name name))

def get (w : World) (s : Subject) (name : String) : Except Fault Value :=
  match w.accessor s name with
  | .error e => .error e
  | .ok a => a.getter w.toStore s

def set (w : World) (s : Subject) (name : String) (v : Value) : Except Fault Unit × World :=
  match w.accessor s name with
  | .error e => (.error e, w)
  | .ok a => match a.setter with
    | none => (.error (.misdeclared (.readOnlyField (w.kindName s) name)), w)
    | some setter =>
      let (result, store) := setter w.toStore s v
      (result, { w with toStore := store })

-- The name of a field is its label when it has no other.
def label (w : World) (s : Subject) (name : String) : Except Fault String :=
  (w.accessor s name).map fun a => (Text.nonempty? a.label).getD name

/-- Writes fields one after the other up to the first that fails; what was written stays. -/
def assign (w : World) (s : Subject) : Table Value → Except Fault Unit × World
  | [] => (.ok (), w)
  | (name, v) :: rest => match w.set s name v with
    | (.error e, w) => (.error e, w)
    | (.ok (), w) => w.assign s rest

end World

end FieldRules
