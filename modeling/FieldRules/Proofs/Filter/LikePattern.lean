import FieldRules.Filter.Build
import FieldRules.Filter.Prepare
import FieldRules.Proofs.Text.Replacing

namespace FieldRules.Filter

inductive PatternStep where
  | anyText
  | char (c : Char)
  deriving DecidableEq, Repr

/-- A pattern read from left to right. The character after a backslash stands for itself, and there
    must be one. -/
def readPattern : List Char → Option (List PatternStep)
  | [] => some []
  | c :: cs =>
    if c = '\\' then
      match cs with
      | [] => none
      | d :: rest => (readPattern rest).map (.char d :: ·)
    else (readPattern cs).map ((if c = '%' then .anyText else .char c) :: ·)

def signs (carried : Bool) : List Char := if carried then ['%'] else []

def wildcards (carried : Bool) : List PatternStep := if carried then [.anyText] else []

def carriesFront (ends : Bool × Bool) (cs : List Char) : Bool := ends.1 && cs.head? == some '%'

def carriesBack (ends : Bool × Bool) (cs : List Char) : Bool := ends.2 && cs.getLast? == some '%'

def between (ends : Bool × Bool) (cs : List Char) : List Char :=
  let text := if carriesFront ends cs then cs.drop 1 else cs
  if carriesBack ends cs then text.dropLast else text

def patternOf (ends : Bool × Bool) (cs : List Char) : List Char :=
  likePattern (carriesFront ends cs) (carriesBack ends cs) (between ends cs)

/-- Whether a pattern says an item's own text between the wildcards that the item carries. -/
def Restores (ends : Bool × Bool) (cs pattern : List Char) : Prop :=
  ∃ text, cs = signs (carriesFront ends cs) ++ text ++ signs (carriesBack ends cs) ∧
    readPattern pattern = some (wildcards (carriesFront ends cs) ++ text.map .char ++
      wildcards (carriesBack ends cs))

def escaped (text : List Char) : List Char := Text.replace ['%'] ['\\', '%'] text

variable {text cs rest : List Char} {steps : List PatternStep} {c d : Char} {back : Bool}

theorem escaped_percent (text : List Char) : escaped ('%' :: text) = '\\' :: '%' :: escaped text :=
  Text.replace_mark_append (List.cons_ne_nil '%' []) text

theorem escaped_cons (hc : c ≠ '%') (text : List Char) :
    escaped (c :: text) = c :: escaped text := by
  refine Text.replace_cons_of_ne fun hmark => hc ?_
  exact (List.cons_prefix_cons.mp hmark).1.symm

theorem read_backslash (d : Char) (rest : List Char) :
    readPattern ('\\' :: d :: rest) = (readPattern rest).map (.char d :: ·) := by
  simp [readPattern]

theorem read_percent (rest : List Char) :
    readPattern ('%' :: rest) = (readPattern rest).map (.anyText :: ·) := by
  cases rest <;> simp [readPattern]

theorem read_char (hslash : c ≠ '\\') (hpercent : c ≠ '%') (rest : List Char) :
    readPattern (c :: rest) = (readPattern rest).map (.char c :: ·) := by
  cases rest <;> simp [readPattern, hslash, hpercent]

theorem read_signs (back : Bool) : readPattern (signs back) = some (wildcards back) := by
  cases back <;> rfl

theorem read_escaped (h : '\\' ∉ text) (back : Bool) :
    readPattern (escaped text ++ signs back) = some (text.map .char ++ wildcards back) := by
  induction text with
  | nil => exact read_signs back
  | cons c text ih =>
    have ⟨hc, htext⟩ : '\\' ≠ c ∧ '\\' ∉ text := by simpa using h
    by_cases hpercent : c = '%'
    · subst hpercent
      rw [escaped_percent, List.cons_append, List.cons_append, read_backslash, ih htext]
      rfl
    · rw [escaped_cons hpercent, List.cons_append, read_char (Ne.symm hc) hpercent, ih htext]
      rfl

theorem length_read_le (text : List Char) (back : Bool) :
    (∀ steps, readPattern (escaped text ++ signs back) = some steps →
      steps.length ≤ text.length + (wildcards back).length) ∧
    ∀ steps, readPattern ('\\' :: (escaped text ++ signs back)) = some steps →
      steps.length ≤ text.length + (wildcards back).length + 1 := by
  induction text with
  | nil =>
    constructor
    · intro steps h
      obtain rfl := Option.some.inj ((read_signs back).symm.trans h)
      simp
    · intro steps h
      cases back with
      | false => cases h
      | true =>
        cases h
        simp
  | cons c text ih =>
    obtain ⟨hfront, hafter⟩ := ih
    by_cases hpercent : c = '%'
    · subst hpercent
      rw [escaped_percent, List.cons_append, List.cons_append, List.length_cons]
      constructor
      · intro steps h
        rw [read_backslash] at h
        obtain ⟨rest, hrest, rfl⟩ := Option.map_eq_some_iff.mp h
        have := hfront rest hrest
        rw [List.length_cons]
        omega
      · intro steps h
        rw [read_backslash, read_percent] at h
        obtain ⟨others, hothers, rfl⟩ := Option.map_eq_some_iff.mp h
        obtain ⟨rest, hrest, rfl⟩ := Option.map_eq_some_iff.mp hothers
        have := hfront rest hrest
        rw [List.length_cons, List.length_cons]
        omega
    · rw [escaped_cons hpercent, List.cons_append, List.length_cons]
      constructor
      · intro steps h
        by_cases hslash : c = '\\'
        · subst hslash
          have := hafter steps h
          omega
        · rw [read_char hslash hpercent] at h
          obtain ⟨rest, hrest, rfl⟩ := Option.map_eq_some_iff.mp h
          have := hfront rest hrest
          rw [List.length_cons]
          omega
      · intro steps h
        rw [read_backslash] at h
        obtain ⟨rest, hrest, rfl⟩ := Option.map_eq_some_iff.mp h
        have := hfront rest hrest
        rw [List.length_cons]
        omega

theorem not_read_backslash (text : List Char) (back : Bool) :
    readPattern ('\\' :: (escaped text ++ signs back)) ≠
      some (.char '\\' :: (text.map .char ++ wildcards back)) := by
  intro h
  cases text with
  | nil => cases back <;> exact absurd h (by decide)
  | cons c text =>
    by_cases hpercent : c = '%'
    · subst hpercent
      rw [escaped_percent, List.cons_append, List.cons_append, read_backslash, read_percent] at h
      obtain ⟨others, hothers, heq⟩ := Option.map_eq_some_iff.mp h
      obtain ⟨rest, -, rfl⟩ := Option.map_eq_some_iff.mp hothers
      cases heq
    · rw [escaped_cons hpercent, List.cons_append, read_backslash] at h
      obtain ⟨rest, hrest, heq⟩ := Option.map_eq_some_iff.mp h
      -- the rest of the pattern is a character short of the text
      have hle := (length_read_le text back).1 rest hrest
      rw [(List.cons.inj heq).2] at hle
      simp only [List.map_cons, List.cons_append, List.length_cons, List.length_append,
        List.length_map] at hle
      omega

theorem not_read_escaped (h : '\\' ∈ text) (back : Bool) :
    readPattern (escaped text ++ signs back) ≠ some (text.map .char ++ wildcards back) := by
  induction text with
  | nil => cases h
  | cons c text ih =>
    by_cases hslash : c = '\\'
    · subst hslash
      rw [escaped_cons (by decide)]
      exact not_read_backslash text back
    · have htext : '\\' ∈ text := (List.mem_cons.mp h).resolve_left (Ne.symm hslash)
      have hstep : readPattern (escaped (c :: text) ++ signs back) =
          (readPattern (escaped text ++ signs back)).map (.char c :: ·) := by
        by_cases hpercent : c = '%'
        · subst hpercent
          rw [escaped_percent, List.cons_append, List.cons_append, read_backslash]
        · rw [escaped_cons hpercent, List.cons_append, read_char hslash hpercent]
      rw [hstep]
      intro hread
      obtain ⟨rest, hrest, heq⟩ := Option.map_eq_some_iff.mp hread
      rw [(List.cons.inj heq).2] at hrest
      exact ih htext hrest

theorem read_likePattern_iff (front back : Bool) (text : List Char) :
    readPattern (likePattern front back text) =
        some (wildcards front ++ text.map .char ++ wildcards back) ↔ '\\' ∉ text := by
  have hbody : readPattern (escaped text ++ signs back) = some (text.map .char ++ wildcards back) ↔
      '\\' ∉ text :=
    ⟨fun h hslash => not_read_escaped hslash back h, fun h => read_escaped h back⟩
  have hpattern : likePattern front back text = signs front ++ (escaped text ++ signs back) := by
    rw [← List.append_assoc]
    rfl
  rw [hpattern, List.append_assoc, ← hbody]
  cases front with
  | false => rfl
  | true =>
    have hread : readPattern (signs true ++ (escaped text ++ signs back)) =
        (readPattern (escaped text ++ signs back)).map (.anyText :: ·) := read_percent _
    have hsteps : wildcards true ++ (text.map .char ++ wildcards back) =
        .anyText :: (text.map .char ++ wildcards back) := rfl
    rw [hread, hsteps, Option.map_eq_some_iff]
    constructor
    · rintro ⟨rest, hrest, heq⟩
      rw [hrest, (List.cons.inj heq).2]
    · intro hrest
      exact ⟨_, hrest, rfl⟩

theorem wildcard?_eq (ends : Bool × Bool) (cs : List Char) : Match.wildcard? ends cs =
    if carriesFront ends cs || carriesBack ends cs then
      some (.wildcard (carriesFront ends cs) (carriesBack ends cs) (between ends cs))
    else none := rfl

theorem eq_dropLast_append_signs {carried : Bool} (h : carried = true → cs.getLast? = some '%') :
    cs = (if carried then cs.dropLast else cs) ++ signs carried := by
  cases carried with
  | false => exact (List.append_nil cs).symm
  | true =>
    obtain ⟨lead, rfl⟩ := List.getLast?_eq_some_iff.mp (h rfl)
    simp [signs]

theorem eq_signs_between {ends : Bool × Bool} (hlen : 1 < cs.length) :
    cs = signs (carriesFront ends cs) ++ between ends cs ++ signs (carriesBack ends cs) := by
  have hback : carriesBack ends cs = true → cs.getLast? = some '%' := by
    intro hcarried
    simp only [carriesBack, Bool.and_eq_true, beq_iff_eq] at hcarried
    exact hcarried.2
  unfold between
  cases hfront : carriesFront ends cs with
  | false => simpa [signs] using eq_dropLast_append_signs hback
  | true =>
    simp only [carriesFront, Bool.and_eq_true, beq_iff_eq] at hfront
    obtain ⟨rest, rfl⟩ := List.head?_eq_some_iff.mp hfront.2
    have hrest : rest ≠ [] := by
      rintro rfl
      exact absurd hlen (by decide)
    have hlast : carriesBack ends ('%' :: rest) = true → rest.getLast? = some '%' := by
      intro hcarried
      rw [← hback hcarried, List.getLast?_cons_of_ne_nil hrest]
    have := congrArg ('%' :: ·) (eq_dropLast_append_signs hlast)
    simpa [signs] using this

theorem backslash_not_mem_iff {front back : Bool} :
    '\\' ∉ signs front ++ text ++ signs back ↔ '\\' ∉ text := by
  cases front <;> cases back <;> simp [signs]

theorem restores_iff {ends : Bool × Bool} (hlen : 1 < cs.length) :
    Restores ends cs (patternOf ends cs) ↔ '\\' ∉ cs := by
  have hcs : cs = signs (carriesFront ends cs) ++ between ends cs ++ signs (carriesBack ends cs) :=
    eq_signs_between hlen
  have hiff : '\\' ∉ cs ↔ '\\' ∉ between ends cs := by
    conv => lhs; rw [hcs]
    exact backslash_not_mem_iff
  rw [hiff, ← read_likePattern_iff (carriesFront ends cs) (carriesBack ends cs)]
  constructor
  · rintro ⟨text, htext, hread⟩
    have heq : text = between ends cs :=
      List.append_cancel_left (List.append_cancel_right (htext.symm.trans hcs))
    rwa [heq] at hread
  · intro hread
    exact ⟨between ends cs, hcs, hread⟩

def takesWildcard (ends : Bool × Bool) (cs : List Char) : Bool :=
  decide (1 < cs.length) && (carriesFront ends cs || carriesBack ends cs)

def likeFragment (column p : String) (pattern : List Char) : Fragment :=
  ⟨"UPPER(UNACCENT(" ++ column ++ "))" ++ " " ++ ("LIKE UPPER(UNACCENT(" ++ p ++ "))"),
    [(p, .str (String.ofList pattern))]⟩

theorem testFragment_like (spec : RuleSpec) (column : String) (names : ParamNames)
    (pattern : List Char) : testFragment spec column names 1 (.ok (.like pattern)) =
      (.ok (likeFragment column (names.name 0) pattern), names.advance 1) := rfl

theorem exists_wildcard {ends : Bool × Bool} (h : takesWildcard ends cs = true) :
    ∃ m, Match.wildcard? ends cs = some m ∧ m.draws = 1 ∧
      ∀ limit spec, m.test limit spec = .ok (.like (patternOf ends cs)) := by
  simp only [takesWildcard, Bool.and_eq_true] at h
  refine ⟨.wildcard (carriesFront ends cs) (carriesBack ends cs) (between ends cs), ?_, rfl,
    fun _ _ => rfl⟩
  rw [wildcard?_eq, if_pos h.2]

/-- An item that the wildcard operator takes becomes a condition on a pattern, and the pattern
    restores the item exactly when the item holds no backslash. -/
theorem wildcard_restores_iff (limit : Numeral.DigitLimit) (spec : RuleSpec) (column : String)
    (names : ParamNames) (ends : Bool × Bool) (hends : wildcardEnds spec.wildcard = .ok ends)
    (item : String) (htakes : takesWildcard ends item.toList = true) :
    ∃ m pattern, (wildcardEnds spec.wildcard).map (Match.wildcard? · item.toList) = .ok (some m) ∧
      testFragment spec column names m.draws (m.test limit spec) =
        (.ok (likeFragment column (names.name 0) pattern), names.advance 1) ∧
      (Restores ends item.toList pattern ↔ '\\' ∉ item.toList) := by
  obtain ⟨m, hm, hdraws, htest⟩ := exists_wildcard htakes
  have hlen : 1 < item.toList.length := by
    simp only [takesWildcard, Bool.and_eq_true, decide_eq_true_eq] at htakes
    exact htakes.1
  refine ⟨m, patternOf ends item.toList, ?_, ?_, restores_iff hlen⟩
  · rw [hends]
    exact congrArg Except.ok hm
  · rw [hdraws, htest limit spec]
    exact testFragment_like spec column names (patternOf ends item.toList)

def titleSpec : RuleSpec := RuleSpec.prepared {}

def titleNames : ParamNames := ParamNames.ofColumn "t.title"

theorem discount_restored : wildcardEnds titleSpec.wildcard = .ok (true, true) ∧
    takesWildcard (true, true) "%50%off".toList = true ∧
    ∃ m pattern, Match.wildcard? (true, true) "%50%off".toList = some m ∧
      testFragment titleSpec "t.title" titleNames m.draws (m.test none titleSpec) =
        (.ok (likeFragment "t.title" (titleNames.name 0) pattern), titleNames.advance 1) ∧
      Restores (true, true) "%50%off".toList pattern := by
  have htakes : takesWildcard (true, true) "%50%off".toList = true := by decide +kernel
  obtain ⟨m, pattern, hm, hbuilt, hiff⟩ := wildcard_restores_iff none titleSpec "t.title" titleNames
    (true, true) rfl "%50%off" htakes
  exact ⟨rfl, htakes, m, pattern, Except.ok.inj hm, hbuilt, hiff.mpr (by decide +kernel)⟩

theorem slashed_percent_freed : wildcardEnds titleSpec.wildcard = .ok (true, true) ∧
    takesWildcard (true, true) "50\\%off%".toList = true ∧
    ∃ m pattern, Match.wildcard? (true, true) "50\\%off%".toList = some m ∧
      testFragment titleSpec "t.title" titleNames m.draws (m.test none titleSpec) =
        (.ok (likeFragment "t.title" (titleNames.name 0) pattern), titleNames.advance 1) ∧
      readPattern pattern = some [.char '5', .char '0', .char '\\', .anyText, .char 'o', .char 'f',
        .char 'f', .anyText] ∧
      ¬Restores (true, true) "50\\%off%".toList pattern := by
  have htakes : takesWildcard (true, true) "50\\%off%".toList = true := by decide +kernel
  obtain ⟨m, hm, hdraws, htest⟩ := exists_wildcard htakes
  refine ⟨rfl, htakes, m, patternOf (true, true) "50\\%off%".toList, hm, ?_, ?_, ?_⟩
  · rw [hdraws, htest none titleSpec]
    exact testFragment_like titleSpec "t.title" titleNames _
  · decide +kernel
  · rw [restores_iff (by decide +kernel)]
    decide +kernel

end FieldRules.Filter
