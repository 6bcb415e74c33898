import FieldRules.Fault
import FieldRules.Text.Segment
import FieldRules.Value.Compare

namespace FieldRules.Service

structure LogContext where
  requestId : Option String := none
  userId : Option String := none
  locale : Option String := none
  deriving DecidableEq, Repr

namespace LogContext

def withUser (c : LogContext) (userId locale : Option String) : LogContext :=
  { c with
    userId := (Text.nonempty? userId).or c.userId
    locale := (Text.nonempty? locale).or c.locale }

def serviceOf? (logger : Value) : Except Fault (Option String) :=
  match (Value.str ".").among? logger, logger with
  | none, _ => .error .wrongKind
  | some false, _ => .ok none
  | some true, .str name => .ok (some (String.ofList (Text.cutAt '.' name.toList).1))
  | some true, _ => .error .noAttribute

def withService (event : Table Value) : Except Fault (Table Value) :=
  (serviceOf? ((event.get? "logger").getD (.str ""))).map fun
    | some service => event.put "service" (.str service)
    | none => event

def noted (event : Table Value) (name : String) (text : Option String) : Table Value :=
  match Text.nonempty? text with
  | some s => event.put name (.str s)
  | none => event

def correlated (c : LogContext) (event : Table Value) : Table Value :=
  noted (noted (noted event "request_id" c.requestId) "user_id" c.userId) "locale" c.locale

def logged (c : LogContext) (event : Table Value) : Except Fault (Table Value) :=
  (withService event).map c.correlated

variable {c : LogContext} {event written : Table Value} {name : String}

theorem get?_noted (event : Table Value) (name other : String) (text : Option String) :
    (noted event name text).get? other =
      if name = other then ((Text.nonempty? text).map .str).or (event.get? other)
      else event.get? other := by
  unfold noted
  cases Text.nonempty? text with
  | none => simp
  | some s =>
    dsimp only
    rw [Table.get?_put]
    split <;> rfl

def known? (c : LogContext) (name : String) : Option String :=
  if name = "request_id" then Text.nonempty? c.requestId
  else if name = "user_id" then Text.nonempty? c.userId
  else if name = "locale" then Text.nonempty? c.locale
  else none

theorem get?_correlated (c : LogContext) (event : Table Value) (name : String) :
    (c.correlated event).get? name = ((c.known? name).map .str).or (event.get? name) := by
  rw [correlated, get?_noted, get?_noted, get?_noted, known?]
  by_cases hrequest : name = "request_id"
  · subst hrequest
    rfl
  by_cases huser : name = "user_id"
  · subst huser
    rfl
  by_cases hlocale : name = "locale"
  · subst hlocale
    rfl
  rw [if_neg (Ne.symm hrequest), if_neg (Ne.symm huser), if_neg (Ne.symm hlocale),
    if_neg hrequest, if_neg huser, if_neg hlocale]
  rfl

/-- An event keeps what it says, but for its service and what is known about its request. -/
theorem get?_logged (h : c.logged event = .ok written) (hname : name ≠ "service") :
    written.get? name = ((c.known? name).map .str).or (event.get? name) := by
  obtain ⟨served, hserved, rfl⟩ := Outcome.map_eq_ok.mp h
  obtain ⟨service?, -, rfl⟩ := Outcome.map_eq_ok.mp hserved
  rw [get?_correlated]
  cases service? with
  | none => rfl
  | some service =>
    dsimp only
    rw [Table.get?_put, if_neg (Ne.symm hname)]

def withUsers (c : LogContext) (users : List (Option String × Option String)) : LogContext :=
  users.foldl (fun c user => c.withUser user.1 user.2) c

/-- Of several users and locales the last ones that are not empty are remembered. -/
theorem withUsers_eq (c : LogContext) (users : List (Option String × Option String)) :
    c.withUsers users = { c with
      userId := (users.reverse.findSome? fun user => Text.nonempty? user.1).or c.userId
      locale := (users.reverse.findSome? fun user => Text.nonempty? user.2).or c.locale } := by
  induction users generalizing c with
  | nil => rfl
  | cons user users ih =>
    rw [withUsers, List.foldl_cons, ← withUsers, ih]
    simp [withUser, List.findSome?_append, Option.or_assoc]

end LogContext

end FieldRules.Service
