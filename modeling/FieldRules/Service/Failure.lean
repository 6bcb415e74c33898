import FieldRules.Fault

namespace FieldRules.Service

inductive FailureKind where
  | invalidRequest
  | misconfigured
  | broken
  | coded (code : String)
  deriving DecidableEq, Repr

namespace FailureKind

def code : FailureKind → String
  | invalidRequest => "VALIDATION_ERROR"
  | misconfigured => "CONFIGURATION_ERROR"
  | broken => "SERVICE_ERROR"
  | coded code => code

def status : FailureKind → Nat
  | invalidRequest => 400
  | _ => 500

def message? : FailureKind → Option String
  | invalidRequest => some "Request validation failed"
  | misconfigured => some "Invalid rule configuration"
  | broken => some "Service error"
  | coded _ => none

end FailureKind

structure Failure where
  kind : FailureKind
  message : String
  details : Table Value := []
  deriving Repr, BEq

namespace Failure

def make (kind : FailureKind) (message : Option String) (details : Table Value) :
    Except Fault Failure :=
  match message.or kind.message? with
  | some message => .ok { kind, message, details }
  | none => .error .wrongKind

def ofFault? : Fault → Option Failure
  | .misdeclared why => some ⟨.misconfigured, why.message, why.details⟩
  | .rejected why => some ⟨.invalidRequest, why.message, why.details⟩
  | _ => none

def body (f : Failure) (requestId : Option String) : Value := .map [
  ("trace_id", match requestId with
    | some id => .str id
    | none => .null),
  ("code", .str f.kind.code),
  ("message", .str f.message),
  ("details", .map f.details)]

end Failure

end FieldRules.Service
