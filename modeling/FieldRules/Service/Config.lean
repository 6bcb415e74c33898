import FieldRules.Fault
import FieldRules.Number.Numeral

namespace FieldRules

structure Config where
  env : String := "local"
  logLevel : String := "info"
  defaultAlias : String := "t"
  defaultDateFormat : String := "%Y-%m-%d"
  requestCodes : String := "request."
  entityCodes : String := "entity."
  locale : String := "en"
  exposeDebugErrors : Bool := true
  deriving DecidableEq, Repr

structure ServiceConfig where
  base : Config := {}
  name : String
  listensOn : Int
  host : String := "0.0.0.0"
  deriving DecidableEq, Repr

namespace Config

def toTable (c : Config) : Table Value := [
  ("env", .str c.env),
  ("log_level", .str c.logLevel),
  ("default_alias", .str c.defaultAlias),
  ("default_date_format", .str c.defaultDateFormat),
  ("request_error_prefix", .str c.requestCodes),
  ("entity_error_prefix", .str c.entityCodes),
  ("locale", .str c.locale),
  ("expose_debug_errors", .bool c.exposeDebugErrors)]

def truthOf? (v : Value) : Option Bool :=
  match v with
  | .bool b => some b
  | .int 0 => some false
  | .int 1 => some true
  | .float x => if x.isZero then some false else if x = Binary64.ofInt 1 then some true else none
  | .str s =>
    let name := String.ofList (s.toList.map Text.lowerPlain)
    if ["1", "t", "y", "on", "yes", "true"].contains name then some true
    else if ["0", "f", "n", "no", "off", "false"].contains name then some false
    else none
  | _ => none

def textGiven (values : Table Value) (name old : String) : Except Fault String :=
  match values.get? name with
  | none => .ok old
  | some (.str s) => .ok s
  | some _ => .error (.badValue none)

def overridden (c : Config) (values : Table Value) : Except Fault Config := do
  let text := textGiven values
  return {
    env := ← text "env" c.env
    logLevel := ← text "log_level" c.logLevel
    defaultAlias := ← text "default_alias" c.defaultAlias
    defaultDateFormat := ← text "default_date_format" c.defaultDateFormat
    requestCodes := ← text "request_error_prefix" c.requestCodes
    entityCodes := ← text "entity_error_prefix" c.entityCodes
    locale := ← text "locale" c.locale
    exposeDebugErrors := ← match values.get? "expose_debug_errors" with
      | none => .ok c.exposeDebugErrors
      | some v => match truthOf? v with
        | some b => .ok b
        | none => .error (.badValue none) }

end Config

namespace ServiceConfig

def listensOnOf? (v : Value) : Option Int :=
  match v with
  | .int n => some n
  | .bool b => some (if b then 1 else 0)
  | .float x => x.toRat?.bind fun q => if q.den = 1 then some q.num else none
  | .str s => if Numeral.isInt s.toList then some (Numeral.intOf s.toList) else none
  | _ => none

def ofValues (name number : Value) : Except Fault ServiceConfig :=
  match name, listensOnOf? number with
  | .str name, some listensOn => .ok { name, listensOn }
  | _, _ => .error (.badValue none)

def toTable (c : ServiceConfig) : Table Value :=
  c.base.toTable ++
    [("service_name", .str c.name), ("port", .int c.listensOn), ("host", .str c.host)]

end ServiceConfig

end FieldRules
