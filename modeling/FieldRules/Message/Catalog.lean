import FieldRules.Value.Written
import FieldRules.Text.Segment

namespace FieldRules.Template

def fill (params : Table Value) (name : List Char) : List Char :=
  match params.get? (String.ofList name) with
  | some v => v.text.toList
  | none => '\x7b' :: name ++ ['\x7d']

def fillFrom (params : Table Value) : Option (List Char) → List Char → List Char
  | none, [] => []
  | some name, [] => '\x7b' :: name.reverse
  | some name, c :: cs =>
    if c = '\x7d' then fill params name.reverse ++ fillFrom params none cs
    else fillFrom params (some (c :: name)) cs
  | none, [c] => if c = '\x7b' then fillFrom params (some []) [] else [c]
  | none, c :: d :: cs =>
    if c = '\x7b' then
      if d = '\x7b' then '\x7b' :: fillFrom params none cs
      else fillFrom params (some []) (d :: cs)
    else if c = '\x7d' ∧ d = '\x7d' then '\x7d' :: fillFrom params none cs
    else c :: fillFrom params none (d :: cs)

def render (params : Table Value) (template : String) : String :=
  String.ofList (fillFrom params none template.toList)

end FieldRules.Template

namespace FieldRules

abbrev Catalogs := Table (Table String)

namespace Catalogs

def english : Table String := [
  ("validator.missing_required_info", "{label} is required"),
  ("validator.empty_info", "{label} must not be empty"),
  ("validator.wrong_type", "{label} must be of type {expected}, got {got}"),
  ("validator.invalid_numeric_length", "{label} must be between {min} and {max}"),
  ("validator.invalid_string_length", "{label} must have between {min} and {max} characters"),
  ("validator.invalid_format", "{label} has an invalid format"),
  ("validator.multiple_options_chosen",
    "{label} cannot be sent together with another option of {group}"),
  ("validator.no_option_chosen", "One of the options of {group} must be sent"),
  ("validator.unknown_parameter", "Unknown parameter {label}"),
  ("validator.parameter_in_wrong_http_portion",
    "{label} was sent in the wrong part of the request"),
  ("internal.validator.unsupported_type", "Unsupported type {type} declared for {label}"),
  ("internal.validator.invalid_regex", "Invalid regular expression declared for {label}"),
  ("internal.validator.non_callable_custom", "Custom validator of {label} is not callable"),
  ("internal.repository.non_callable_callback", "Condition callback is not callable"),
  ("internal.repository.invalid_callback_return",
    "Condition callback returned an invalid value"),
  ("internal.unknown_internal_error", "Unexpected internal error")]

def portuguese : Table String := [
  ("validator.missing_required_info", "{label} é obrigatório"),
  ("validator.empty_info", "{label} não pode ser vazio"),
  ("validator.wrong_type", "{label} deve ser do tipo {expected}, recebido {got}"),
  ("validator.invalid_numeric_length", "{label} deve estar entre {min} e {max}"),
  ("validator.invalid_string_length", "{label} deve ter entre {min} e {max} caracteres"),
  ("validator.invalid_format", "{label} possui formato inválido"),
  ("validator.multiple_options_chosen",
    "{label} não pode ser enviado junto com outra opção de {group}"),
  ("validator.no_option_chosen", "Uma das opções de {group} deve ser enviada"),
  ("validator.unknown_parameter", "Parâmetro desconhecido {label}"),
  ("validator.parameter_in_wrong_http_portion",
    "{label} foi enviado na parte errada da requisição"),
  ("internal.unknown_internal_error", "Erro interno inesperado")]

def standard : Catalogs := [("en", english), ("pt_BR", portuguese)]

end Catalogs

def isInternalCode (code : String) : Bool := Text.startsBy code "internal."

def sharedCode? (code : String) : Option String :=
  if isInternalCode code then none
  else (Text.fromMark? "validator.".toList code.toList).map String.ofList

structure Context where
  catalogs : Catalogs := Catalogs.standard
  defaultLocale : String := "en"
  locale : Option String := none

namespace Context

def template? (c : Context) (code locale : String) : Option String :=
  let catalog := (c.catalogs.get? locale).getD []
  match catalog.get? code with
  | some t => some t
  | none => match sharedCode? code with
    | some shared => catalog.get? shared
    | none => none

def translate (c : Context) (code : String) (params : Table Value) : String :=
  let locale := (Text.nonempty? c.locale).getD c.defaultLocale
  match c.template? code locale with
  | some t => Template.render params t
  | none => match c.template? code c.defaultLocale with
    | some t => Template.render params t
    | none => code

end Context

end FieldRules
