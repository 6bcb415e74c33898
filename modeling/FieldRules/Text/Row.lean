namespace FieldRules.Text

inductive RowFault where
  | textAfterBreak
  | fieldTooLong
  deriving DecidableEq, Repr

inductive RowPlace where
  | fieldStart
  | plain
  | quoted
  | afterQuote
  deriving DecidableEq, Repr

def isBreak (c : Char) : Bool := c == '\n' || c == '\r'

def fieldLimit : Nat := 131072

/-- The fields from a place on; `field` holds the current one, last character first. -/
def rowFields : RowPlace → List Char → List Char → Except RowFault (List (List Char))
  | _, field, [] => .ok [field.reverse]
  | .quoted, field, c :: cs =>
    if c = '"' then rowFields .afterQuote field cs else rowFields .quoted (c :: field) cs
  | place, field, c :: cs =>
    if c = '"' ∧ place = .fieldStart then rowFields .quoted field cs
    else if c = '"' ∧ place = .afterQuote then rowFields .quoted (c :: field) cs
    else if c = ',' then (rowFields .fieldStart [] cs).map (field.reverse :: ·)
    else if isBreak c then
      if cs.all isBreak then .ok [field.reverse] else .error .textAfterBreak
    else rowFields .plain (c :: field) cs

def splitRow (cs : List Char) : Except RowFault (List (List Char)) :=
  match cs with
  | [] => .ok []
  | c :: rest =>
    if isBreak c then if rest.all isBreak then .ok [] else .error .textAfterBreak
    else match rowFields .fieldStart [] cs with
      | .error fault => .error fault
      | .ok fields =>
        if fields.any (fieldLimit < ·.length) then .error .fieldTooLong else .ok fields

end FieldRules.Text
