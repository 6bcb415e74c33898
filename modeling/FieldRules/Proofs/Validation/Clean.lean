import FieldRules.Fault
import FieldRules.Proofs.Rule.Prepared
import FieldRules.Validation.Struct

namespace FieldRules.Validation

section Groups

variable {α : Type}

theorem lookupSame_append (l l' : List (Value × α)) (key : Value) :
    lookupSame (l ++ l') key = (lookupSame l key).or (lookupSame l' key) := by
  induction l with
  | nil => simp [lookupSame]
  | cons e l ih =>
    obtain ⟨k, a⟩ := e
    by_cases hk : k.same key <;> simp [lookupSame, hk, ih]

namespace Choices

variable {c : Choices} {g : ChoiceGroup} {key o : Value}

theorem option?_note : (c.note g).option? key = c.option? key := by
  unfold note
  split <;> rfl

theorem option?_choose_of_some (h : c.option? key = some o) :
    (c.choose g).option? key = some o := by
  unfold option? at h ⊢
  rw [choose, lookupSame_append, h]
  rfl

theorem option?_choose_self (h : c.option? g.groupId = none)
    (hself : g.groupId.same g.groupId = true) :
    (c.choose g).option? g.groupId = some g.optionId := by
  unfold option? at h ⊢
  rw [choose, lookupSame_append, h]
  simp [lookupSame, hself]

end Choices

inductive ChoiceStep (data : Table Value) (name : String) (spec : RuleSpec) (c : Choices) :
    Choices → Bool → Prop
  | ungrouped : spec.choiceGroup = none → ChoiceStep data name spec c c false
  | absent {g : ChoiceGroup} : spec.choiceGroup = some g → data.has name = false →
      ChoiceStep data name spec c (c.note g) false
  | first {g : ChoiceGroup} : spec.choiceGroup = some g → data.has name = true →
      c.option? g.groupId = none → ChoiceStep data name spec c ((c.note g).choose g) false
  | again {g : ChoiceGroup} {o : Value} : spec.choiceGroup = some g → data.has name = true →
      c.option? g.groupId = some o →
        ChoiceStep data name spec c (c.note g) (!o.same g.optionId)

variable {ctx : Context} {code base name : String} {data : Table Value} {spec : RuleSpec}
  {specs : List (String × RuleSpec)} {c c₁ c₂ : Choices} {clash : Bool} {errors : List FieldError}

def clashErrors (ctx : Context) (code path : String) (spec : RuleSpec) (clash : Bool) :
    List FieldError :=
  match spec.choiceGroup with
  | some g => if clash then [otherOption ctx code path spec g] else []
  | none => []

theorem choices_step (h : choices ctx code base data ((name, spec) :: specs) c = (errors, .ok c₂)) :
    ∃ c₁ clash errors', ChoiceStep data name spec c c₁ clash ∧
      choices ctx code base data specs c₁ = (errors', .ok c₂) ∧
      errors = clashErrors ctx code (base ++ name) spec clash ++ errors' := by
  simp only [choices] at h
  split at h
  next hg => exact ⟨_, _, _, .ungrouped hg, h, by simp [clashErrors, hg]⟩
  next g hg =>
    split at h
    · cases h
    · split at h
      next habsent =>
        have habsent : data.has name = false := by simpa using habsent
        exact ⟨_, _, _, .absent hg habsent, h, by simp [clashErrors, hg]⟩
      next hpresent =>
        have hpresent : data.has name = true := by simpa using hpresent
        split at h
        next hnone =>
          have hnone := Choices.option?_note.symm.trans hnone
          exact ⟨_, _, _, .first hg hpresent hnone, h, by simp [clashErrors, hg]⟩
        next o ho =>
          have ho := Choices.option?_note.symm.trans ho
          split at h
          next hsame => exact ⟨_, _, _, .again hg hpresent ho, h, by simp [clashErrors, hg, hsame]⟩
          next hother =>
            obtain ⟨rfl, hrest⟩ := Prod.mk.inj h
            exact ⟨_, _, _, .again hg hpresent ho, Prod.ext rfl hrest,
              by simp [clashErrors, hg, hother]⟩

theorem ChoiceStep.clashErrors_eq_nil_iff (h : ChoiceStep data name spec c c₁ clash) :
    clashErrors ctx code base spec clash = [] ↔ clash = false := by
  unfold clashErrors
  cases h with
  | ungrouped hg => simp [hg]
  | absent hg => simp [hg]
  | first hg => simp [hg]
  | again hg => simp [hg]

theorem choices_cons (h : choices ctx code base data ((name, spec) :: specs) c = (errors, .ok c₂)) :
    ∃ c₁ clash errors', ChoiceStep data name spec c c₁ clash ∧
      choices ctx code base data specs c₁ = (errors', .ok c₂) ∧
      (errors = [] ↔ clash = false ∧ errors' = []) := by
  obtain ⟨c₁, clash, errors', hstep, hrest, rfl⟩ := choices_step h
  exact ⟨c₁, clash, errors', hstep, hrest,
    by rw [List.append_eq_nil_iff, hstep.clashErrors_eq_nil_iff]⟩

theorem ChoiceStep.option?_of_some (h : ChoiceStep data name spec c c₁ clash) {key o : Value}
    (ho : c.option? key = some o) : c₁.option? key = some o := by
  cases h with
  | ungrouped => exact ho
  | absent => exact Choices.option?_note.trans ho
  | first => exact Choices.option?_choose_of_some (Choices.option?_note.trans ho)
  | again => exact Choices.option?_note.trans ho

theorem option?_of_choices (h : choices ctx code base data specs c = (errors, .ok c₂))
    {key o : Value} (ho : c.option? key = some o) : c₂.option? key = some o := by
  induction specs generalizing c errors with
  | nil =>
    cases h
    exact ho
  | cons e specs ih =>
    obtain ⟨c₁, clash, errors', hstep, hrest, -⟩ := choices_cons h
    exact ih hrest (hstep.option?_of_some ho)

theorem admits_of_option? {g : ChoiceGroup} {o : Value} (hg : spec.choiceGroup = some g)
    (ho : c.option? g.groupId = some o) (hsame : o.same g.optionId = true) :
    c.admits spec = true := by
  simp [Choices.admits, hg, ho, hsame]

theorem ChoiceStep.admits (h : ChoiceStep data name spec c c₁ false) (hgroup : WellGrouped spec)
    (hhas : data.has name = true)
    (hkept : ∀ key o, c₁.option? key = some o → c₂.option? key = some o) :
    c₂.admits spec = true := by
  generalize hclash : false = clash at h
  cases h with
  | ungrouped hg => simp [Choices.admits, hg]
  | absent _ habsent =>
    rw [hhas] at habsent
    cases habsent
  | first hg _ hnone =>
    obtain ⟨hself, hoption⟩ := hgroup _ hg
    exact admits_of_option? hg
      (hkept _ _ (Choices.option?_choose_self (Choices.option?_note.trans hnone) hself)) hoption
  | again hg _ ho =>
    exact admits_of_option? hg (hkept _ _ (Choices.option?_note.trans ho)) (by simpa using hclash)

theorem admits_of_choices (h : choices ctx code base data specs c = ([], .ok c₂)) :
    ∀ e ∈ specs, WellGrouped e.2 → data.has e.1 = true → c₂.admits e.2 = true := by
  induction specs generalizing c with
  | nil => simp
  | cons e specs ih =>
    obtain ⟨c₁, clash, errors', hstep, hrest, hclean⟩ := choices_cons h
    obtain ⟨rfl, rfl⟩ := hclean.mp rfl
    intro e he hgroup hhas
    rcases List.mem_cons.mp he with rfl | he
    · exact hstep.admits hgroup hhas fun _ _ ho => option?_of_choices hrest ho
    · exact ih hrest e he hgroup hhas

end Groups

variable {s : Setting} {data : Table Value}

theorem ofField_eq (s : Setting) (name : String) (data : Table Value) (base : String) (r : Rule) :
    ∃ validate, ofField s name data base r =
      fieldErrors s r.spec r.shape r.custom r.requiredWhen name data base validate := by
  obtain ⟨spec, custom, requiredWhen, callback, nested⟩ := r
  cases nested with
  | none => exact ⟨_, ofField.eq_1 ..⟩
  | some rules => exact ⟨_, ofField.eq_2 ..⟩

theorem checkField_of_ofField {name base : String} {r : Rule} (h : ofField s name data base r = []) :
    ∃ label o, checkField s.codes r.spec r.shape r.custom r.requiredWhen label name data = .ok o := by
  obtain ⟨validate, hv⟩ := ofField_eq s name data base r
  rw [hv] at h
  unfold fieldErrors at h
  dsimp only at h
  split at h
  · cases h
  next ho => exact ⟨_, _, ho⟩
  next ho => exact ⟨_, _, ho⟩

theorem ofField_of_ofFields {c : Choices} {base : String} {rules : RuleMap}
    (h : ofFields s c data base rules = []) :
    ∀ e ∈ rules, c.admits e.2.spec = true → ofField s e.1 data base e.2 = [] := by
  induction rules with
  | nil => simp
  | cons e rules ih =>
    obtain ⟨name, r⟩ := e
    rw [ofFields] at h
    obtain ⟨hhead, htail⟩ := List.append_eq_nil_iff.mp h
    intro e he hadmits
    rcases List.mem_cons.mp he with rfl | he
    · rwa [if_pos hadmits] at hhead
    · exact ih htail e he hadmits

theorem ofField_of_clean {rules : RuleMap} {parent : String}
    (h : ofStruct s rules data parent = ([], none)) :
    ∀ e ∈ rules, WellGrouped e.2.spec → data.has e.1 = true →
      ofField s e.1 data (baseOf parent) e.2 = [] := by
  intro e he hgroup hhas
  unfold ofStruct structOutcome at h
  dsimp only at h
  split at h
  · cases (Prod.mk.inj h).2
  next errors c hc =>
    obtain ⟨hfirst, hfields⟩ := List.append_eq_nil_iff.mp (Prod.mk.inj h).1
    obtain ⟨rfl, -⟩ := List.append_eq_nil_iff.mp hfirst
    have hmem : (e.1, e.2.spec) ∈ specs rules := List.mem_map.mpr ⟨e, he, rfl⟩
    have hadmits := admits_of_choices hc (e.1, e.2.spec) hmem hgroup hhas
    exact ofField_of_ofFields hfields e he hadmits

section Field

variable {codes label name : String} {spec : RuleSpec} {shape : Shape}
  {custom : Option (Hook Check)} {requiredWhen : Option (Hook Requirement)} {v : Value}

theorem presence_of_not_isEmpty (required : Option Bool) (hv : v.isEmpty = false) :
    presence codes spec required (some v) = .ok (some v) := by
  simp [presence, hv]

theorem hasType_of_checkType {type : Option DeclaredType} (h : checkType codes type v = .ok ()) :
    ∃ b, DeclaredType.base? type = some b ∧ hasType b v = true := by
  unfold checkType at h
  split at h
  · cases h
  next b hb =>
    split at h
    next ht => exact ⟨b, hb, ht⟩
    next => cases h

def lengthStep (codes : String) (spec : RuleSpec) (shape : Shape) (v : Value) :
    Except Fault Unit :=
  let numeric := spec.base?.any BaseType.isNumeric
  match spec.length with
  | some length =>
    if numeric || spec.base? == some .string ||
        (shape == .arrayOfScalars || shape == .arrayOfStructs) then
      checkLength codes numeric length v
    else .ok ()
  | none => .ok ()

def patternStep (codes : String) (spec : RuleSpec) (v : Value) : Except Fault Unit :=
  match spec.regex with
  | some pattern =>
    if spec.base?.any BaseType.isNumeric || spec.base? == some .string then
      checkPattern codes pattern v
    else .ok ()
  | none => .ok ()

theorem checkContent_eq : checkContent codes spec shape custom label name data v =
    (lengthStep codes spec shape v).bind fun _ => (patternStep codes spec v).bind fun _ =>
      checkCustom custom spec label name data := by
  unfold checkContent lengthStep patternStep
  cases spec.length with
  | none =>
    cases spec.regex with
    | none => rfl
    | some pattern =>
      dsimp only
      split <;> rfl
  | some length =>
    cases spec.regex with
    | none =>
      dsimp only
      split <;> rfl
    | some pattern =>
      dsimp only
      split <;> split <;> rfl

theorem checkCustom_of_checkContent
    (h : checkContent codes spec shape custom label name data v = .ok ()) :
    checkCustom custom spec label name data = .ok () := by
  rw [checkContent_eq] at h
  obtain ⟨-, -, h⟩ := Outcome.bind_eq_ok.mp h
  obtain ⟨-, -, h⟩ := Outcome.bind_eq_ok.mp h
  exact h

theorem custom_of_checkField {o : Option Value}
    (h : checkField codes spec shape custom requiredWhen label name data = .ok o)
    (hget : data.get? name = some v) (hv : v.isEmpty = false) :
    (∃ b, DeclaredType.base? spec.type = some b ∧ hasType b v = true) ∧
      checkCustom custom spec label name data = .ok () := by
  unfold checkField at h
  split at h
  · cases h
  next required _ =>
    rw [hget, presence_of_not_isEmpty required hv] at h
    dsimp only at h
    split at h
    · cases h
    next hvalue =>
      unfold checkValue at hvalue
      split at hvalue
      · cases hvalue
      next htype =>
        dsimp only at hvalue
        split at hvalue
        · cases hvalue
        · split at hvalue
          · cases hvalue
          next hcontent =>
            exact ⟨hasType_of_checkType htype, checkCustom_of_checkContent hcontent⟩

end Field

end FieldRules.Validation
