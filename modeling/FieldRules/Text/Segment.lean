namespace FieldRules.Text

def splitOn (sep : Char) : List Char → List (List Char)
  | [] => [[]]
  | c :: cs =>
    if c = sep then [] :: splitOn sep cs
    else match splitOn sep cs with
      | [] => [[c]]
      | piece :: pieces => (c :: piece) :: pieces

theorem splitOn_ne_nil (sep : Char) (cs : List Char) : splitOn sep cs ≠ [] := by
  cases cs with
  | nil => simp [splitOn]
  | cons c cs =>
    simp only [splitOn]
    split
    · simp
    · split <;> simp

def cutAt (sep : Char) : List Char → List Char × Option (List Char)
  | [] => ([], none)
  | c :: cs =>
    if c = sep then ([], some cs)
    else ((c :: (cutAt sep cs).1), (cutAt sep cs).2)

def trimEnd (p : Char → Bool) (cs : List Char) : List Char :=
  (cs.reverse.dropWhile p).reverse

def lastPiece (sep : Char) (cs : List Char) : List Char :=
  (splitOn sep cs).getLastD []

def dropMark? : List Char → List Char → Option (List Char)
  | [], cs => some cs
  | _ :: _, [] => none
  | m :: ms, c :: cs => if m = c then dropMark? ms cs else none

theorem dropMark?_eq_some {mark cs rest : List Char} (h : dropMark? mark cs = some rest) :
    cs = mark ++ rest := by
  induction mark generalizing cs with
  | nil => simpa [dropMark?] using h
  | cons m ms ih =>
    cases cs with
    | nil => simp [dropMark?] at h
    | cons c cs =>
      rw [dropMark?] at h
      split at h
      · next hc => rw [hc, ih h]; rfl
      · simp at h

def fromMark? (mark : List Char) : List Char → Option (List Char)
  | [] => if mark = [] then some [] else none
  | c :: cs =>
    if (dropMark? mark (c :: cs)).isSome then some (c :: cs) else fromMark? mark cs

def hasMark (mark cs : List Char) : Bool := (fromMark? mark cs).isSome

/-- Every occurrence of a nonempty mark, found from left to right, replaced by other text;
    `skip` counts the characters of an occurrence still to be passed over. -/
def replaceFrom (mark new : List Char) : Nat → List Char → List Char
  | _, [] => []
  | skip + 1, _ :: cs => replaceFrom mark new skip cs
  | 0, c :: cs =>
    if (dropMark? mark (c :: cs)).isSome then
      new ++ replaceFrom mark new (mark.length - 1) cs
    else c :: replaceFrom mark new 0 cs

def replace (mark new cs : List Char) : List Char := replaceFrom mark new 0 cs

def join (sep : String) : List String → String
  | [] => ""
  | [s] => s
  | s :: t :: rest => s ++ sep ++ join sep (t :: rest)

def isDigit (c : Char) : Bool := '0' ≤ c && c ≤ '9'

def isPlainWord (c : Char) : Bool :=
  isDigit c || ('A' ≤ c && c ≤ 'Z') || ('a' ≤ c && c ≤ 'z')

def lowerPlain (c : Char) : Char :=
  if 'A' ≤ c ∧ c ≤ 'Z' then Char.ofNat (c.toNat + 32) else c

def nonempty? (s : Option String) : Option String := s.filter (· != "")

def pieces (s : String) (sep : Char) : List String :=
  (splitOn sep s.toList).map String.ofList

def replaced (s mark new : String) : String :=
  String.ofList (replace mark.toList new.toList s.toList)

def mentions (s mark : String) : Bool := hasMark mark.toList s.toList

def withoutEndDots (s : String) : String :=
  String.ofList (trimEnd (· == '.') s.toList)

def startsBy (s mark : String) : Bool := (dropMark? mark.toList s.toList).isSome

end FieldRules.Text
