import FieldRules.Table
import FieldRules.Number.Binary64

namespace FieldRules

inductive Value where
  | null
  | bool (b : Bool)
  | int (n : Int)
  | float (x : Binary64)
  | str (s : String)
  | list (items : List Value)
  | tuple (items : List Value)
  | map (entries : List (String × Value))
  | bytes (octets : List UInt8)
  | obj (attributes : List (String × Value))
  deriving Repr, BEq, Inhabited

namespace Value

def kindName : Value → String
  | null => "NoneType"
  | bool _ => "bool"
  | int _ => "int"
  | float _ => "float"
  | str _ => "str"
  | list _ => "list"
  | tuple _ => "tuple"
  | map _ => "dict"
  | bytes _ => "bytes"
  | obj _ => "Obj"

def truthy : Value → Bool
  | null => false
  | bool b => b
  | int n => n != 0
  | float x => !x.isZero
  | str s => s != ""
  | list items => !items.isEmpty
  | tuple items => !items.isEmpty
  | map entries => !entries.isEmpty
  | bytes octets => !octets.isEmpty
  | obj _ => true

def isNull : Value → Bool
  | null => true
  | _ => false

def isEmpty : Value → Bool
  | null => true
  | str s => s == ""
  | list items => items.isEmpty
  | tuple items => items.isEmpty
  | _ => false

def isBlank : Value → Bool
  | null => true
  | str s => s == ""
  | list items => items.isEmpty
  | _ => false

def items? : Value → Option (List Value)
  | list items => some items
  | tuple items => some items
  | _ => none

def isArray (v : Value) : Bool := v.items?.isSome

def entries? : Value → Option (Table Value)
  | map entries => some entries
  | _ => none

def fields? : Value → Option (Table Value)
  | map entries => some entries
  | obj attributes => some attributes
  | _ => none

def fields (v : Value) : Table Value := v.fields?.getD []

def elements? : Value → Option (List Value)
  | list items => some items
  | tuple items => some items
  | str s => some (s.toList.map fun c => str (String.singleton c))
  | map entries => some (entries.map fun e => str e.1)
  | bytes octets => some (octets.map fun b => int b.toNat)
  | _ => none

end Value

end FieldRules
