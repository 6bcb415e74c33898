import FieldRules.Value.Basic

namespace FieldRules

inductive Misdeclaration where
  | invalidChoiceGroup (shown : String)
  | elementOfNonArray (type element : String)
  | rulesRequired (parent : String)
  | noRules (source : String)
  | invalidRules (errors : Table Value)
  | invalidDirection (field direction : String)
  | fieldNotSortable (field : String)
  | callbackNotCallable
  | callbackReturned (kind : String)
  | noAccessors (entity : String)
  | unknownField (entity field : String)
  | readOnlyField (entity field : String)
  | notARecord (entity : String)
  deriving Repr, BEq

namespace Misdeclaration

def message : Misdeclaration → String
  | invalidChoiceGroup _ => "Invalid choice group"
  | elementOfNonArray .. => "Element type is only supported by array rules"
  | rulesRequired _ => "Validation rules are required"
  | noRules _ => "No rules to extract request data"
  | invalidRules _ => "Invalid rule configuration"
  | invalidDirection .. => "Invalid sort direction"
  | fieldNotSortable _ => "Field is not sortable"
  | callbackNotCallable => "Condition callback is not callable"
  | callbackReturned _ => "Condition callback returned an invalid value"
  | noAccessors _ => "Entity has no registered accessors"
  | unknownField .. => "Unknown entity field"
  | readOnlyField .. => "Entity field is read only"
  | notARecord _ => "Not a dataclass"

def details : Misdeclaration → Table Value
  | invalidChoiceGroup shown => [("choice_group", .str shown)]
  | elementOfNonArray type element => [("type", .str type), ("of", .str element)]
  | rulesRequired parent => [("parent", .str parent)]
  | noRules source => [("source", .str source)]
  | invalidRules errors => errors
  | invalidDirection field direction => [("field", .str field), ("direction", .str direction)]
  | fieldNotSortable field => [("field", .str field)]
  | callbackNotCallable => [("code", .str "internal.repository.non_callable_callback")]
  | callbackReturned kind =>
    [("code", .str "internal.repository.invalid_callback_return"), ("type", .str kind)]
  | noAccessors entity => [("entity", .str entity)]
  | unknownField entity field => [("entity", .str entity), ("field", .str field)]
  | readOnlyField entity field => [("entity", .str entity), ("field", .str field)]
  | notARecord entity => [("entity", .str entity)]

end Misdeclaration

inductive Rejection where
  | invalidFields (errors : Table Value)
  | bodyNotJson
  | bodyNotObject
  deriving Repr, BEq

namespace Rejection

def message : Rejection → String
  | invalidFields _ => "Request validation failed"
  | bodyNotJson => "Request body is not valid JSON"
  | bodyNotObject => "Request body must be a JSON object"

def details : Rejection → Table Value
  | invalidFields errors => errors
  | _ => []

end Rejection

inductive Fault where
  | field (code : String) (params : Table Value)
  | misdeclared (why : Misdeclaration)
  | rejected (why : Rejection)
  | unsupportedConnective (shown : String)
  | badValue (text : Option String)
  | tooManyDigits
  | wrongKind
  | noAttribute
  | outOfRange
  | unknownName
  | brokenRow
  | brokenPattern
  | tooLarge
  | tooDeep
  | raised (text : String)
  deriving Repr, BEq, Inhabited

namespace Fault

def isBadValue : Fault → Bool
  | badValue _ => true
  | tooManyDigits => true
  | unsupportedConnective _ => true
  | _ => false

def wording : Fault → String
  | badValue (some text) => text
  | raised text => text
  | _ => "<host text>"

end Fault

end FieldRules

namespace FieldRules.Outcome

variable {ε α β : Type}

theorem map_eq_ok {x : Except ε α} {f : α → β} {b : β} :
    x.map f = .ok b ↔ ∃ a, x = .ok a ∧ f a = b := by
  cases x <;> simp [Except.map]

theorem map_eq_error {x : Except ε α} {f : α → β} {e : ε} : x.map f = .error e ↔ x = .error e := by
  cases x <;> simp [Except.map]

theorem bind_eq_ok {x : Except ε α} {f : α → Except ε β} {b : β} :
    x.bind f = .ok b ↔ ∃ a, x = .ok a ∧ f a = .ok b := by
  cases x <;> simp [Except.bind]

theorem then_eq_ok {x : Except ε Unit} {y : Except ε β} {b : β} :
    (x.bind fun _ => y) = .ok b ↔ x = .ok () ∧ y = .ok b := by
  cases x <;> simp [Except.bind]

theorem bind_eq_error {x : Except ε α} {f : α → Except ε β} {e : ε} :
    x.bind f = .error e ↔ x = .error e ∨ ∃ a, x = .ok a ∧ f a = .error e := by
  cases x <;> simp [Except.bind]

end FieldRules.Outcome
