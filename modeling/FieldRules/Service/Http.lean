import FieldRules.Favorite.Entity
import FieldRules.Json.Reader
import FieldRules.Request.Handler
import FieldRules.Service.Failure
import FieldRules.Text.Encoding

namespace FieldRules.Service

structure HttpRequest where
  method : String
  path : String
  query : List (String × String) := []
  headers : List (String × String) := []
  body : List UInt8 := []
  deriving Repr

inductive Reply where
  | json (status : Nat) (body : Value)
  | text (status : Nat) (text : String)
  deriving Repr, BEq

def Reply.status : Reply → Nat
  | json status _ => status
  | text status _ => status

-- The places of the service's own that a request can be for.
inductive Route where
  | about
  | health
  | metrics
  | search
  | insert
  | update (id : String)
  deriving DecidableEq, Repr

structure ModelField where
  name : String
  type : BaseType
  nullable : Bool := false
  deriving DecidableEq, Repr

/-- The library that the service runs on: which route a method and a path lead to, or what they
    are answered with when they lead to none; how the fields of a record that is answered are
    checked and turned into what is sent; the answer when a route fails; how many levels of arrays
    and objects a route can read; and the metrics as they are exported. -/
structure Web where
  route : String → String → Route ⊕ Reply
  build : List ModelField → Table Value → Option (Table Value)
  failed : Reply
  depth : Route → Nat
  exported : String

structure BodyFields where
  fields : Table Value := []
  brokenName : Bool := false
  brokenText : Bool := false
  deriving Repr

namespace BodyFields

def ofEntries (entries : List (JsonText × Json)) : BodyFields where
  fields := Table.ofEntries (Json.entryValues entries)
  brokenName := entries.any (·.1.broken)
  brokenText := (Table.ofEntries (entries.map fun e => (e.1.text, e.2))).any (·.2.isBroken)

/-- The fields of a body, which must be a JSON object when there is one. A body that is nested too
    deep is not taken for one that is no JSON. -/
def ofOctets (depth : Nat) (octets : List UInt8) : Except Fault BodyFields :=
  if octets.isEmpty then .ok {}
  else match (Json.required (Text.decode? octets)).bind (Json.read depth) with
    | .error fault => .error (if fault.isBadValue then .rejected .bodyNotJson else fault)
    | .ok (.object entries) => .ok (ofEntries entries)
    | .ok _ => .error (.rejected .bodyNotObject)

end BodyFields

namespace HttpRequest

def header? (r : HttpRequest) (name : String) : Option String :=
  let lower (s : String) : List Char := s.toList.map Text.lowerPlain
  (r.headers.find? fun h => lower h.1 == lower name).map Prod.snd

def context (r : HttpRequest) (c : Config) : Context :=
  { defaultLocale := c.locale, locale := r.header? "Accept-Language" }

def bags (r : HttpRequest) (fields : Table Value) (attributes : Table Value) :
    Request.Bags := [
  ("query", Table.ofEntries (r.query.map fun e => (e.1, .str e.2))),
  ("body", fields),
  ("headers", Table.ofEntries (r.headers.map fun e =>
    (String.ofList (e.1.toList.map Text.lowerPlain), .str e.2))),
  ("attributes", attributes)]

end HttpRequest

def optional (s : Option String) : Value :=
  match s with
  | some s => .str s
  | none => .null

def queryModel : List ModelField := [
  { name := "alias", type := .string },
  { name := "select", type := .string },
  { name := "where", type := .string, nullable := true },
  { name := "params", type := .object },
  { name := "order_by", type := .string, nullable := true },
  { name := "limit", type := .integer, nullable := true },
  { name := "offset", type := .integer, nullable := true },
  { name := "group_by", type := .string, nullable := true }]

def queryTable (q : Search.Query) : Table Value := [
  ("alias", .str q.table),
  ("select", .str q.selection),
  ("where", optional q.whereText?),
  ("params", .map q.params),
  ("order_by", optional q.orderText?),
  ("limit", q.limit),
  ("offset", q.offset),
  ("group_by", optional q.groupBy)]

def searchHandler (c : Config) : Request.Handler :=
  Request.Handler.make Favorite.searchRules (some "f") (some "f, o") c

-- Only favorites that are not deleted are found.
def notDeleted : Tree := .list [.leaf (.str "o.deleted_at IS NULL")]

def searched (c : Config) (r : HttpRequest) (fields : Table Value) :
    Except Fault (Table Value) :=
  ((searchHandler c).handle Numeral.digitLimit (r.bags fields []) r.method (r.context c)
    (some notDeleted)).map queryTable

def favoriteModel : List ModelField := [
  { name := "id", type := .integer, nullable := true },
  { name := "name", type := .string, nullable := true },
  { name := "owner", type := .string, nullable := true },
  { name := "html_url", type := .string, nullable := true },
  { name := "active", type := .boolean },
  { name := "visibility", type := .string }]

def saved (c : Config) (r : HttpRequest) (fields : Table Value) (id : Option String) :
    Except Fault (Table Value) := do
  let attributes : Table Value := match id with
    | some id => [("id", .str id)]
    | none => []
  let ctx := r.context c
  let data ← Request.validated Numeral.digitLimit (r.bags fields attributes)
    (Favorite.saveRules id.isNone c.requestCodes) r.method ctx c.requestCodes
  let favorite ← Favorite.ofRequest data
  let errors ← Favorite.check ctx favorite c.entityCodes
  Errors.raise errors
  return Favorite.attributes favorite

def aboutBody : Value := .map [
  ("service", .str "search"),
  ("message", .str "Search rules service"),
  ("version", .str "1.0.0"),
  ("capabilities", .list [.str "validation", .str "filter_compilation", .str "sorting"])]

-- How long the service has been up is not told.
def healthBody : Value := .map [
  ("service", .str "search"),
  ("status", .str "ok"),
  ("uptime_seconds", .null),
  ("version", .str "1.0.0"),
  ("commit", .str "unknown")]

namespace Web

def ofFault (web : Web) (c : Config) (requestId : Option String) (fault : Fault) : Reply :=
  match Failure.ofFault? fault with
  | none => web.failed
  | some f =>
    let shown := f.kind.status < 500 || c.exposeDebugErrors
    .json f.kind.status ({ f with details := if shown then f.details else [] }.body requestId)

def answered (web : Web) (model : List ModelField) (fields : Table Value) : Reply :=
  match web.build model fields with
  | some fields => .json 200 (.map fields)
  | none => web.failed

/-- What the body of a request leads to. A broken name always ends in an error that shows it, which
    cannot be written; a broken text shows only in a favorite. -/
def withBody (web : Web) (c : Config) (requestId : Option String) (r : HttpRequest) (depth : Nat)
    (model : List ModelField) (answer : Table Value → Except Fault (Table Value)) : Reply :=
  match BodyFields.ofOctets depth r.body with
  | .error fault => web.ofFault c requestId fault
  | .ok body =>
    if body.brokenName then web.failed
    else match answer body.fields with
      | .error fault => web.ofFault c requestId fault
      | .ok fields => if body.brokenText then web.failed else web.answered model fields

def reached (web : Web) (c : Config) (requestId : Option String) (r : HttpRequest)
    (route : Route) : Reply :=
  let withBody := web.withBody c requestId r (web.depth route)
  match route with
  | .about => .json 200 aboutBody
  | .health => .json 200 healthBody
  | .metrics => .text 200 web.exported
  | .search => withBody queryModel fun fields => searched c r fields
  | .insert => withBody favoriteModel fun fields => saved c r fields none
  | .update id => withBody favoriteModel fun fields => saved c r fields (some id)

def reply (web : Web) (c : Config) (requestId : Option String) (r : HttpRequest) : Reply :=
  match web.route r.method r.path with
  | .inl route => web.reached c requestId r route
  | .inr reply => reply

end Web

end FieldRules.Service
