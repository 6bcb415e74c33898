import FieldRules.Proofs.Validation.Options

namespace FieldRules.Validation

inductive Declares (groupId : Value) : List (String × RuleSpec) → ChoiceGroup → Prop
  | here {e : String × RuleSpec} {rest : List (String × RuleSpec)} {g : ChoiceGroup} :
      e.2.choiceGroup = some g → g.groupId = groupId → Declares groupId (e :: rest) g
  | later {e : String × RuleSpec} {rest : List (String × RuleSpec)} {g : ChoiceGroup} :
      (∀ g', e.2.choiceGroup = some g' → g'.groupId ≠ groupId) → Declares groupId rest g →
        Declares groupId (e :: rest) g

structure GroupsMet (present : String → Bool) (specs : List (String × RuleSpec)) : Prop where
  agree : ∀ e ∈ specs, present e.1 = true → TakesPart present specs e.2
  informed : ∀ groupId g, Declares groupId specs g → g.required = true →
    ∃ e ∈ specs, Member present groupId e

variable {present : String → Bool} {groupId key o : Value} {e : String × RuleSpec}
  {specs rest : List (String × RuleSpec)} {g : ChoiceGroup} {b : Bool}

theorem declares_cons_of_group (hg : e.2.choiceGroup = some g) (hid : g.groupId = groupId)
    {g' : ChoiceGroup} : Declares groupId (e :: rest) g' ↔ g = g' := by
  constructor
  · intro h
    cases h with
    | here hg' _ => exact Option.some.inj (hg.symm.trans hg')
    | later hno _ => exact absurd hid (hno g hg)
  · rintro rfl
    exact .here hg hid

theorem declares_cons_of_other (hno : ∀ g, e.2.choiceGroup = some g → g.groupId ≠ groupId)
    {g' : ChoiceGroup} : Declares groupId (e :: rest) g' ↔ Declares groupId rest g' := by
  constructor
  · intro h
    cases h with
    | here hg hid => exact absurd hid (hno _ hg)
    | later _ h => exact h
  · exact .later hno

theorem Declares.isName (hnamed : ∀ e ∈ specs, NamedGroup e.2) (h : Declares groupId specs g) :
    groupId.IsName := by
  induction h with
  | here hg hid => exact hid ▸ hnamed _ List.mem_cons_self _ hg
  | later _ _ ih => exact ih fun e he => hnamed e (List.mem_cons_of_mem _ he)

theorem exists_chosen_iff : (∃ o, Chosen present groupId specs o) ↔
    ∃ e ∈ specs, Member present groupId e := by
  induction specs with
  | nil =>
    constructor
    · rintro ⟨o, h⟩
      cases h
    · rintro ⟨e, he, -⟩
      cases he
  | cons e specs ih =>
    by_cases hm : Member present groupId e
    · obtain ⟨hp, g, hg, hid⟩ := hm
      exact ⟨fun _ => ⟨e, List.mem_cons_self, hp, g, hg, hid⟩, fun _ => ⟨_, .here hp hg hid⟩⟩
    · simp only [chosen_cons_of_not_member hm, ih, List.mem_cons, exists_eq_or_imp, hm, false_or]

variable {ctx : Context} {code base name : String} {data : Table Value} {spec : RuleSpec}
  {c c₁ c₂ : Choices} {clash : Bool} {errors : List FieldError}

theorem lookupSame_isSome_iff {α : Type} {l : List (Value × α)} (hl : ∀ e ∈ l, e.1.IsName)
    (hkey : key.IsName) : (lookupSame l key).isSome = true ↔ ∃ a, (key, a) ∈ l := by
  induction l with
  | nil => simp [lookupSame]
  | cons e l ih =>
    obtain ⟨k, a⟩ := e
    have hk : k.IsName := hl (k, a) List.mem_cons_self
    have ih := ih fun e he => hl e (List.mem_cons_of_mem _ he)
    rw [lookupSame]
    by_cases hsame : k.same key = true
    · obtain rfl := (hk.same_iff hkey).mp hsame
      rw [if_pos hsame]
      exact ⟨fun _ => ⟨a, List.mem_cons_self⟩, fun _ => rfl⟩
    · have hne : key ≠ k := fun heq => hsame ((hk.same_iff hkey).mpr heq.symm)
      rw [if_neg hsame, ih]
      simp [hne]

def NamedChoices (c : Choices) : Prop := ∀ e ∈ c.required, e.1.IsName

theorem mem_required_note (hc : NamedChoices c) (hg : g.groupId.IsName) :
    (key, b) ∈ (c.note g).required ↔ (key, b) ∈ c.required ∨
      ((∀ b', (key, b') ∉ c.required) ∧ g.groupId = key ∧ g.required = b) := by
  unfold Choices.note
  split
  next hsome =>
    obtain ⟨b', hb'⟩ := (lookupSame_isSome_iff hc hg).mp hsome
    constructor
    · exact .inl
    · rintro (h | ⟨hno, rfl, -⟩)
      · exact h
      · exact absurd hb' (hno b')
  next hnone =>
    rw [lookupSame_isSome_iff hc hg, not_exists] at hnone
    rw [List.mem_append, List.mem_singleton, Prod.mk.injEq]
    constructor
    · rintro (h | ⟨rfl, rfl⟩)
      · exact .inl h
      · exact .inr ⟨hnone, rfl, rfl⟩
    · rintro (h | ⟨-, rfl, rfl⟩)
      · exact .inl h
      · exact .inr ⟨rfl, rfl⟩

theorem NamedChoices.note (hc : NamedChoices c) (hg : g.groupId.IsName) :
    NamedChoices (c.note g) := by
  rintro ⟨key, b⟩ he
  rcases (mem_required_note hc hg).mp he with h | ⟨-, rfl, -⟩
  · exact hc _ h
  · exact hg

theorem ChoiceStep.required_eq (h : ChoiceStep data name spec c c₁ clash) :
    (spec.choiceGroup = none ∧ c₁.required = c.required) ∨
      ∃ g, spec.choiceGroup = some g ∧ c₁.required = (c.note g).required := by
  cases h with
  | ungrouped hg => exact .inl ⟨hg, rfl⟩
  | absent hg => exact .inr ⟨_, hg, rfl⟩
  | first hg => exact .inr ⟨_, hg, rfl⟩
  | again hg => exact .inr ⟨_, hg, rfl⟩

theorem mem_required_choices (hnamed : ∀ e ∈ specs, NamedGroup e.2) (hc : NamedChoices c)
    (h : choices ctx code base data specs c = (errors, .ok c₂)) :
    (key, b) ∈ c₂.required ↔ (key, b) ∈ c.required ∨
      ((∀ b', (key, b') ∉ c.required) ∧ ∃ g, Declares key specs g ∧ g.required = b) := by
  induction specs generalizing c errors with
  | nil =>
    cases h
    constructor
    · exact .inl
    · rintro (h | ⟨-, g, hg, -⟩)
      · exact h
      · cases hg
  | cons e specs ih =>
    obtain ⟨c₁, clash, errors', hstep, hrest, -⟩ := choices_cons h
    have hnamed' : ∀ e ∈ specs, NamedGroup e.2 :=
      fun e he => hnamed e (List.mem_cons_of_mem _ he)
    rcases hstep.required_eq with ⟨hnone, heq⟩ | ⟨g, hg, heq⟩
    · have hc₁ : NamedChoices c₁ := fun e he => hc e (heq ▸ he)
      have hno : ∀ g, e.2.choiceGroup = some g → g.groupId ≠ key :=
        fun g hg => nomatch hnone.symm.trans hg
      rw [ih hnamed' hc₁ hrest, heq]
      simp only [declares_cons_of_other hno]
    · have hname : g.groupId.IsName := hnamed e List.mem_cons_self g hg
      have hc₁ : NamedChoices c₁ := fun e he => hc.note hname e (heq ▸ he)
      rw [ih hnamed' hc₁ hrest, heq]
      simp only [mem_required_note hc hname]
      by_cases hid : g.groupId = key
      · -- the group is noted from here on, so later members do not count
        simp only [declares_cons_of_group hg hid, hid, true_and, exists_eq_left']
        constructor
        · rintro ((h | h) | ⟨hno, -⟩)
          · exact .inl h
          · exact .inr h
          · refine absurd ⟨?_, rfl⟩ (not_or.mp (hno g.required)).2
            exact fun b' => (not_or.mp (hno b')).1
        · rintro (h | h)
          · exact .inl (.inl h)
          · exact .inl (.inr h)
      · have hno : ∀ g', e.2.choiceGroup = some g' → g'.groupId ≠ key := by
          intro g' hg'
          cases hg.symm.trans hg'
          exact hid
        simp only [declares_cons_of_other hno, hid, false_and, and_false, or_false]

theorem choices_errors_eq_nil_iff (hgroups : ∀ e ∈ specs, WellGrouped e.2)
    (h : choices ctx code base data specs c = (errors, .ok c₂)) :
    errors = [] ↔ ∀ e ∈ specs, data.has e.1 = true → c₂.admits e.2 = true := by
  constructor
  · rintro rfl
    exact fun e he => admits_of_choices h e he (hgroups e he)
  · intro hadmits
    clear hgroups
    induction specs generalizing c errors with
    | nil =>
      cases h
      rfl
    | cons e specs ih =>
      obtain ⟨c₁, clash, errors', hstep, hrest, hclean⟩ := choices_cons h
      have herrors := ih hrest fun e he => hadmits e (List.mem_cons_of_mem _ he)
      refine hclean.mpr ⟨?_, herrors⟩
      cases hstep with
      | ungrouped => rfl
      | absent => rfl
      | first => rfl
      | @again g o hg hhas ho =>
        have hlast := option?_of_choices hrest (Choices.option?_note.trans ho)
        have hlasts := hadmits e List.mem_cons_self hhas
        simp only [Choices.admits, hg, hlast] at hlasts
        rw [hlasts]
        rfl

theorem unchosen_eq_nil_iff : unchosen ctx code base c = [] ↔
    ∀ key, (key, true) ∈ c.required → ∃ o, c.option? key = some o := by
  rw [unchosen, List.filterMap_eq_nil_iff]
  constructor
  · intro h key hkey
    have := h (key, true) hkey
    cases ho : c.option? key with
    | none => simp [ho] at this
    | some o => exact ⟨o, rfl⟩
  · rintro h ⟨key, required⟩ hkey
    cases required with
    | false => rfl
    | true =>
      obtain ⟨o, ho⟩ := h key hkey
      simp [ho]

theorem exists_option_iff (hnamed : ∀ e ∈ specs, NamedGroup e.2)
    (h : choices ctx code base data specs {} = (errors, .ok c)) (hkey : key.IsName) :
    (∃ o, c.option? key = some o) ↔ ∃ e ∈ specs, Member data.has key e := by
  rw [← exists_chosen_iff]
  apply exists_congr
  intro o
  rw [option?_choices_iff hnamed h hkey]
  simp [Choices.option?, lookupSame]

theorem groups_clean_iff {code' : String} (hnamed : ∀ e ∈ specs, NamedGroup e.2)
    (hgroups : ∀ e ∈ specs, WellGrouped e.2)
    (h : choices ctx code base data specs {} = (errors, .ok c)) :
    errors ++ unchosen ctx code' base c = [] ↔ GroupsMet data.has specs := by
  have hagree : errors = [] ↔ ∀ e ∈ specs, data.has e.1 = true → TakesPart data.has specs e.2 := by
    rw [choices_errors_eq_nil_iff hgroups h]
    constructor
    · intro hall e he hhas
      exact (admits_iff hnamed h (hnamed e he)).mp (hall e he hhas)
    · intro hall e he hhas
      exact (admits_iff hnamed h (hnamed e he)).mpr (hall e he hhas)
  have hinformed : unchosen ctx code' base c = [] ↔ ∀ groupId g, Declares groupId specs g →
      g.required = true → ∃ e ∈ specs, Member data.has groupId e := by
    have hempty : NamedChoices {} := by simp [NamedChoices]
    rw [unchosen_eq_nil_iff]
    constructor
    · intro hall groupId g hdeclares hrequired
      refine (exists_option_iff hnamed h (hdeclares.isName hnamed)).mp (hall groupId ?_)
      exact (mem_required_choices hnamed hempty h).mpr
        (.inr ⟨by simp, g, hdeclares, hrequired⟩)
    · intro hall key hkey
      rcases (mem_required_choices hnamed hempty h).mp hkey with hkey | ⟨-, g, hdeclares, hrequired⟩
      · cases hkey
      · exact (exists_option_iff hnamed h (hdeclares.isName hnamed)).mpr
          (hall key g hdeclares hrequired)
  rw [List.append_eq_nil_iff, hagree, hinformed]
  exact ⟨fun hboth => ⟨hboth.1, hboth.2⟩, fun hmet => ⟨hmet.agree, hmet.informed⟩⟩

end FieldRules.Validation
