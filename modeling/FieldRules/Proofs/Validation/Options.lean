import FieldRules.Proofs.Validation.Verdict

namespace FieldRules

def Value.IsName (v : Value) : Prop := (∃ s, v = .str s) ∨ ∃ n, v = .int n

namespace Value.IsName

variable {v w : Value}

theorem isKey (h : v.IsName) : v.isKey = true := by
  rcases h with ⟨s, rfl⟩ | ⟨n, rfl⟩ <;> simp [Value.isKey]

theorem same_iff (hv : v.IsName) (hw : w.IsName) : v.same w = true ↔ v = w := by
  rcases hv with ⟨s, rfl⟩ | ⟨m, rfl⟩
  · rcases hw with ⟨t, rfl⟩ | ⟨n, rfl⟩
    · simp [same, samePlain]
    · simp [same, samePlain, amount?]
  · rcases hw with ⟨t, rfl⟩ | ⟨n, rfl⟩
    · simp [same, samePlain, amount?]
    · simp [same, samePlain, amount?, Amount.ofInt, Amount.same]

end Value.IsName

def NamedGroup (spec : RuleSpec) : Prop := ∀ g, spec.choiceGroup = some g → g.groupId.IsName

namespace Validation

def Member (present : String → Bool) (groupId : Value) (e : String × RuleSpec) : Prop :=
  present e.1 = true ∧ ∃ g, e.2.choiceGroup = some g ∧ g.groupId = groupId

inductive Chosen (present : String → Bool) (groupId : Value) :
    List (String × RuleSpec) → Value → Prop
  | here {e : String × RuleSpec} {rest : List (String × RuleSpec)} {g : ChoiceGroup} :
      present e.1 = true → e.2.choiceGroup = some g → g.groupId = groupId →
        Chosen present groupId (e :: rest) g.optionId
  | later {e : String × RuleSpec} {rest : List (String × RuleSpec)} {o : Value} :
      ¬Member present groupId e → Chosen present groupId rest o →
        Chosen present groupId (e :: rest) o

def TakesPart (present : String → Bool) (specs : List (String × RuleSpec)) (spec : RuleSpec) :
    Prop :=
  ∀ g, spec.choiceGroup = some g →
    ∃ o, Chosen present g.groupId specs o ∧ o.same g.optionId = true

variable {present : String → Bool} {groupId o : Value} {e : String × RuleSpec}
  {rest : List (String × RuleSpec)}

theorem chosen_cons_of_member {g : ChoiceGroup} (hp : present e.1 = true)
    (hg : e.2.choiceGroup = some g) (hid : g.groupId = groupId) :
    Chosen present groupId (e :: rest) o ↔ g.optionId = o := by
  constructor
  · intro h
    cases h with
    | here _ hg' _ =>
      cases hg.symm.trans hg'
      rfl
    | later hno _ => exact absurd ⟨hp, g, hg, hid⟩ hno
  · rintro rfl
    exact .here hp hg hid

theorem chosen_cons_of_not_member (hno : ¬Member present groupId e) :
    Chosen present groupId (e :: rest) o ↔ Chosen present groupId rest o := by
  constructor
  · intro h
    cases h with
    | here hp hg hid => exact absurd ⟨hp, _, hg, hid⟩ hno
    | later _ h => exact h
  · exact .later hno

theorem not_member_of_ne {g : ChoiceGroup} (hg : e.2.choiceGroup = some g)
    (hid : g.groupId ≠ groupId) : ¬Member present groupId e := by
  rintro ⟨-, g', hg', hid'⟩
  cases hg.symm.trans hg'
  exact hid hid'

theorem not_member_of_ungrouped (h : e.2.choiceGroup = none) : ¬Member present groupId e := by
  rintro ⟨-, g, hg, -⟩
  cases h.symm.trans hg

theorem chosen_concat_of_ungrouped {specs : List (String × RuleSpec)}
    (h : e.2.choiceGroup = none) :
    Chosen present groupId (specs ++ [e]) o ↔ Chosen present groupId specs o := by
  induction specs with
  | nil => exact chosen_cons_of_not_member (not_member_of_ungrouped h)
  | cons f specs ih =>
    by_cases hm : Member present groupId f
    · obtain ⟨hp, g, hg, hid⟩ := hm
      rw [List.cons_append, chosen_cons_of_member hp hg hid, chosen_cons_of_member hp hg hid]
    · rw [List.cons_append, chosen_cons_of_not_member hm, chosen_cons_of_not_member hm, ih]

theorem chosen_map {present' : String → Bool} {f : RuleSpec → RuleSpec}
    (hf : ∀ spec, (f spec).choiceGroup = spec.choiceGroup) {specs : List (String × RuleSpec)}
    (hp : ∀ e ∈ specs, present e.1 = present' e.1) :
    Chosen present groupId (specs.map fun e => (e.1, f e.2)) o ↔
      Chosen present' groupId specs o := by
  induction specs with
  | nil => constructor <;> intro h <;> cases h
  | cons e specs ih =>
    have ih := ih fun e he => hp e (List.mem_cons_of_mem _ he)
    have hhead : present e.1 = present' e.1 := hp e List.mem_cons_self
    by_cases hm : Member present' groupId e
    · obtain ⟨hpresent, g, hg, hid⟩ := hm
      have hpresent' : present (e.1, f e.2).1 = true := hhead.trans hpresent
      have hg' : (e.1, f e.2).2.choiceGroup = some g := (hf e.2).trans hg
      rw [List.map_cons, chosen_cons_of_member hpresent' hg' hid,
        chosen_cons_of_member hpresent hg hid]
    · have hm' : ¬Member present groupId (e.1, f e.2) := by
        rintro ⟨hpresent, g, hg, hid⟩
        exact hm ⟨hhead.symm.trans hpresent, g, (hf e.2).symm.trans hg, hid⟩
      rw [List.map_cons, chosen_cons_of_not_member hm', chosen_cons_of_not_member hm, ih]

theorem option?_choose (c : Choices) (g : ChoiceGroup) (key : Value) :
    (c.choose g).option? key =
      (c.option? key).or (if g.groupId.same key then some g.optionId else none) := by
  unfold Choices.option? Choices.choose
  rw [lookupSame_append]
  rfl

variable {ctx : Context} {code base : String} {data : Table Value}

theorem ChoiceStep.option?_iff {name : String} {spec : RuleSpec} {c c₁ : Choices} {clash : Bool}
    (h : ChoiceStep data name spec c c₁ clash) (hnamed : NamedGroup spec) {key : Value}
    (hkey : key.IsName) :
    (c₁.option? key = some o ∨ (c₁.option? key = none ∧ Chosen data.has key rest o)) ↔
      (c.option? key = some o ∨
        (c.option? key = none ∧ Chosen data.has key ((name, spec) :: rest) o)) := by
  cases h with
  | ungrouped hg => rw [chosen_cons_of_not_member (not_member_of_ungrouped hg)]
  | absent _ habsent =>
    have hno : ¬Member data.has key (name, spec) := by
      rintro ⟨hp, -⟩
      rw [habsent] at hp
      cases hp
    rw [Choices.option?_note, chosen_cons_of_not_member hno]
  | @first g hg hp hnone =>
    have hname := hnamed g hg
    rw [option?_choose, Choices.option?_note]
    by_cases hid : g.groupId = key
    · subst hid
      rw [chosen_cons_of_member hp hg rfl, hnone, (hname.same_iff hname).mpr rfl]
      simp
    · have hsame : g.groupId.same key = false := by
        rw [← Bool.not_eq_true, hname.same_iff hkey]
        exact hid
      rw [chosen_cons_of_not_member (not_member_of_ne hg hid), hsame]
      simp
  | @again g o' hg hp ho =>
    rw [Choices.option?_note]
    by_cases hid : g.groupId = key
    · subst hid
      rw [ho]
      simp
    · rw [chosen_cons_of_not_member (not_member_of_ne hg hid)]

theorem option?_choices_iff {specs : List (String × RuleSpec)} {c₀ c : Choices}
    {errors : List FieldError} (hnamed : ∀ e ∈ specs, NamedGroup e.2)
    (h : choices ctx code base data specs c₀ = (errors, .ok c)) {key : Value}
    (hkey : key.IsName) : c.option? key = some o ↔
      c₀.option? key = some o ∨ (c₀.option? key = none ∧ Chosen data.has key specs o) := by
  induction specs generalizing c₀ errors with
  | nil =>
    cases h
    constructor
    · exact .inl
    · rintro (h | ⟨-, h⟩)
      · exact h
      · cases h
  | cons e specs ih =>
    obtain ⟨c₁, clash, errors', hstep, hrest, -⟩ := choices_cons h
    rw [ih (fun e he => hnamed e (List.mem_cons_of_mem _ he)) hrest]
    exact hstep.option?_iff (hnamed e List.mem_cons_self) hkey

theorem admits_iff {specs : List (String × RuleSpec)} {c : Choices} {errors : List FieldError}
    (hnamed : ∀ e ∈ specs, NamedGroup e.2)
    (h : choices ctx code base data specs {} = (errors, .ok c)) {spec : RuleSpec}
    (hspec : NamedGroup spec) : c.admits spec = true ↔ TakesPart data.has specs spec := by
  have hoption : ∀ key : Value, key.IsName → ∀ o, c.option? key = some o ↔
      Chosen data.has key specs o := by
    intro key hkey o
    rw [option?_choices_iff hnamed h hkey]
    simp [Choices.option?, lookupSame]
  unfold Choices.admits TakesPart
  cases hg : spec.choiceGroup with
  | none => simp
  | some g =>
    simp only [Option.some.injEq, forall_eq', ← hoption _ (hspec g hg)]
    cases c.option? g.groupId with
    | none => simp
    | some o => simp

theorem choices_total (ctx : Context) (code base : String) (data : Table Value)
    {specs : List (String × RuleSpec)} (hnamed : ∀ e ∈ specs, NamedGroup e.2) (c₀ : Choices) :
    ∃ errors c, choices ctx code base data specs c₀ = (errors, .ok c) ∧
      ∀ e ∈ errors, e.code = code := by
  induction specs generalizing c₀ with
  | nil => exact ⟨[], c₀, rfl, by simp⟩
  | cons e specs ih =>
    obtain ⟨name, spec⟩ := e
    have hnamed' : ∀ e ∈ specs, NamedGroup e.2 :=
      fun e he => hnamed e (List.mem_cons_of_mem _ he)
    simp only [choices]
    split
    · exact ih hnamed' c₀
    next g hg =>
      rw [if_neg (by simp [(hnamed _ List.mem_cons_self g hg).isKey])]
      split
      · exact ih hnamed' _
      · split
        · exact ih hnamed' _
        · obtain ⟨errors, c, hc, hcodes⟩ := ih hnamed' (c₀.note g)
          rw [hc]
          dsimp only
          split
          · exact ⟨errors, c, rfl, hcodes⟩
          · refine ⟨_, c, rfl, ?_⟩
            intro e he
            rcases List.mem_cons.mp he with rfl | he
            · rfl
            · exact hcodes e he

theorem code_of_unchosen {c : Choices} {e : FieldError} (h : e ∈ unchosen ctx code base c) :
    e.code = code := by
  obtain ⟨⟨key, required⟩, -, he⟩ := List.mem_filterMap.mp h
  dsimp only at he
  split at he
  · exact (Option.some.inj he) ▸ rfl
  · cases he

theorem ofStruct_eq {s : Setting} (hcodes : isInternalCode s.codes = false) {rules : RuleMap}
    (hnamed : ∀ e ∈ rules, NamedGroup e.2.spec) (data : Table Value) (parent : String) :
    ∃ lead c, ofStruct s rules data parent =
        (lead ++ ofFields s c data (baseOf parent) rules, none) ∧
      (∀ e ∈ lead, e.isInternal = false) ∧
      ∀ spec, NamedGroup spec →
        (c.admits spec = true ↔ TakesPart data.has (specs rules) spec) := by
  have hspecs : ∀ f ∈ specs rules, NamedGroup f.2 := by
    intro f hf
    obtain ⟨e, he, rfl⟩ := List.mem_map.mp hf
    exact hnamed e he
  obtain ⟨errors, c, hc, hcode⟩ := choices_total s.context
    (s.code "validator.multiple_options_chosen") (baseOf parent) data hspecs {}
  refine ⟨errors ++ unchosen s.context (s.code "validator.no_option_chosen") (baseOf parent) c, c,
    ?_, ?_, fun spec hspec => admits_iff hspecs hc hspec⟩
  · rw [ofStruct, structOutcome, hc]
  · intro e he
    rcases List.mem_append.mp he with he | he
    · rw [FieldError.isInternal, hcode e he]
      exact isInternalCode_prefixed hcodes rfl
    · rw [FieldError.isInternal, code_of_unchosen he]
      exact isInternalCode_prefixed hcodes rfl

end Validation

end FieldRules
