import FieldRules.Request.Unknown
import FieldRules.Search.Query
import FieldRules.Service.Config
import FieldRules.Validation.Validator

namespace FieldRules.Request

/-- The validated data of a request. Strays are reported first; only without them are the values
    validated. -/
def validated (limit : Numeral.DigitLimit) (bags : Bags) (rules : RuleMap) (method : String)
    (ctx : Context) (codes : String) : Except Fault (Table Value) :=
  let source := defaultSource method
  match extract limit bags rules source with
  | .error e => .error e
  | .ok data =>
    let unknown := unknownParameters ctx bags rules source
    let errors : Except Fault Errors :=
      if unknown.isEmpty then
        (Validator.validate { context := ctx, codes } (.map data) (some rules) "").1
      else .ok unknown
    match errors with
    | .error e => .error e
    | .ok errors => (Errors.raise errors).map fun () => data

structure Handler where
  rules : RuleMap
  table : String
  select : Option String := none
  config : Config := {}

namespace Handler

def make (rules : RuleMap) (table select : Option String) (config : Config) : Handler :=
  { rules := rules.prepare (some ⟨config.requestCodes, config.defaultDateFormat⟩)
    table := (Text.nonempty? table).getD config.defaultAlias
    select, config }

def context (h : Handler) (locale : Option String) : Context :=
  { defaultLocale := h.config.locale, locale }

def handle (h : Handler) (limit : Numeral.DigitLimit) (bags : Bags) (method : String)
    (ctx : Context) (extra : Option Tree) : Except Fault Search.Query :=
  match validated limit bags h.rules method ctx h.config.requestCodes with
  | .error e => .error e
  | .ok data => Search.query limit data h.rules h.table h.select extra none

end Handler

end FieldRules.Request
