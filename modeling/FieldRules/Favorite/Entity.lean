import FieldRules.Validation.Payload
import FieldRules.Validation.Validator

namespace FieldRules.Favorite

def visibilities : Value := .tuple [.str "private", .str "public"]

def labelled (type : BaseType) (label : String) : RuleSpec :=
  { type := some (.known type), label := some label }

def searchRules : RuleMap := [
  ("id", { spec := labelled .integer "Id" }),
  ("name", { spec := labelled .string "Name" }),
  ("owner", { spec :=
    { labelled .string "Owner" with table := some "o", column := some "o.login" } }),
  ("htmlUrl", { spec :=
    { labelled .string "URL" with
        column := some "f.html_url"
        wildcard := some (.tuple [.bool false, .bool true]) } }),
  ("active", { spec := labelled .boolean "Active" }),
  ("visibility", { spec :=
    { labelled .string "Visibility" with
        enumValues := some visibilities, sortable := some false } })]

def filledText (label : String) : Rule :=
  { spec := { labelled .string label with requireFilled := some true } }

def ownerRule : Rule := { spec := labelled .string "Owner" }

def activeRule : Rule :=
  { spec := { labelled .boolean "Active" with default := some (.bool true) } }

def visibilityRule (codes : String) : Rule :=
  { spec := { labelled .string "Visibility" with
      default := some (.str "private"), enumValues := some visibilities }
    custom := some (.call "visibility" (Validation.checkEnum codes)) }

def sentRules (codes : String) : RuleMap := [
  ("name", filledText "Name"),
  ("htmlUrl", filledText "URL"),
  ("owner", ownerRule),
  ("active", activeRule),
  ("visibility", visibilityRule codes)]

def identityRule : Rule :=
  { spec := { labelled .integer "Id" with
      requireFilled := some true, source := some "attributes" } }

def saveRules (isNew : Bool) (codes : String) : RuleMap :=
  if isNew then sentRules codes else sentRules codes ++ [("id", identityRule)]

def boundedText (most : Nat) (pattern : Option String) : Rule :=
  { spec := { length := some (.tuple [.int 1, .int most]), regex := pattern.map .ofText } }

def storedVisibility : Rule :=
  { spec := { enumValues := some visibilities }
    custom := some (.call "visibility" Validation.checkEntityEnum) }

def entityRules : RuleMap := [
  ("name", boundedText 255 none),
  ("html_url", boundedText 2048 (some "^https?://")),
  ("visibility", storedVisibility)]


def fields : Table Value := [
  ("id", .null),
  ("name", .null),
  ("owner", .null),
  ("html_url", .null),
  ("active", .bool true),
  ("visibility", .str "private")]

def className : String := "Favorite"

def subject : Subject := .entity "favorite"

def accessors : Table Accessor :=
  let labels : Table String :=
    [("html_url", "URL"), ("name", "Name"), ("visibility", "Visibility")]
  fields.names.map fun name => (name, .ofAttribute name true (labels.get? name))

def world : World :=
  ((World.initial.declareClass className none (some fields)).register className
    accessors).create "favorite" className

def entityField (name : String) : String := if name = "htmlUrl" then "html_url" else name

def ofRequest (data : Table Value) : Except Fault World :=
  match world.assign subject (Table.ofEntries (data.map fun e => (entityField e.1, e.2))) with
  | (.ok (), w) => .ok w
  | (.error e, _) => .error e

def attributes (w : World) : Table Value :=
  ((w.entities.get? "favorite").map Entity.attributes).getD []

def check (ctx : Context) (w : World) (codes : String) : Except Fault Errors :=
  (Validator.validateEntity { context := ctx } w subject entityRules codes).1

end FieldRules.Favorite
