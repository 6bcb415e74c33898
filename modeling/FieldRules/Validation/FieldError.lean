import FieldRules.Fault
import FieldRules.Message.Catalog

namespace FieldRules

structure FieldError where
  path : String
  code : String
  label : Value := .null
  params : Table Value := []
  message : String
  deriving Repr, BEq

namespace FieldError

def isInternal (e : FieldError) : Bool := isInternalCode e.code

def reason (e : FieldError) : String := String.ofList (Text.lastPiece '.' e.code.toList)

def make (ctx : Context) (path code : String) (params : Table Value) : FieldError :=
  ⟨path, code, (params.get? "label").getD .null, params, ctx.translate code params⟩

def toValue (e : FieldError) : Value :=
  .map [("code", .str e.code),
    ("message", .str (if e.message = "" then e.code else e.message))]

end FieldError

abbrev Errors := Table FieldError

namespace Errors

def ofList (errors : List FieldError) : Errors :=
  Table.ofEntries (errors.map fun e => (e.path, e))

def toList (errors : Errors) : List FieldError := errors.map Prod.snd

def raise (errors : Errors) : Except Fault Unit :=
  let details : Table Value := errors.map fun e => (e.1, e.2.toValue)
  if errors.isEmpty then .ok ()
  else if errors.any fun e => e.2.isInternal then .error (.misdeclared (.invalidRules details))
  else .error (.rejected (.invalidFields details))

end Errors

end FieldRules
