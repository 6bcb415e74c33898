import FieldRules.Value.Compare
import FieldRules.Value.Written
import FieldRules.Fault

namespace FieldRules

inductive BaseType where
  | string
  | integer
  | float
  | boolean
  | object
  | array
  deriving DecidableEq, Repr

namespace BaseType

def name : BaseType → String
  | string => "string"
  | integer => "integer"
  | float => "float"
  | boolean => "boolean"
  | object => "object"
  | array => "array"

def ofName? : String → Option BaseType
  | "string" => some string
  | "integer" => some integer
  | "float" => some float
  | "double" => some float
  | "boolean" => some boolean
  | "object" => some object
  | "array" => some array
  | _ => none

def label : BaseType → String
  | string => "RuleType.STRING"
  | integer => "RuleType.INTEGER"
  | float => "RuleType.FLOAT"
  | boolean => "RuleType.BOOLEAN"
  | object => "RuleType.OBJECT"
  | array => "RuleType.ARRAY"

def hasParts : BaseType → Bool
  | object => true
  | array => true
  | _ => false

def isNumeric : BaseType → Bool
  | integer => true
  | float => true
  | _ => false

end BaseType

inductive DeclaredType where
  | known (b : BaseType)
  | other (v : Value)
  deriving Repr, BEq

namespace DeclaredType

def ofValue : Value → Except Fault (Option DeclaredType)
  | .null => .ok none
  | .str s => .ok (some (match BaseType.ofName? s with
    | some b => known b
    | none => other (.str s)))
  | v => if v.isKey then .ok (some (other v)) else .error .wrongKind

def truthy : DeclaredType → Bool
  | known _ => true
  | other v => v.truthy

def base? : Option DeclaredType → Option BaseType
  | some (known b) => some b
  | _ => none

def label : Option DeclaredType → String
  | some (known b) => b.label
  | some (other v) => v.text
  | none => "None"

def toValue : Option DeclaredType → Value
  | some (known b) => .str b.name
  | some (other v) => v
  | none => .null

end DeclaredType

end FieldRules
