import Mathlib.Data.List.Forall2
import FieldRules.Proofs.Validation.Kept

namespace FieldRules

def Hook.inGroup (g : Option ChoiceGroup) : Hook Check → Hook Check
  | call name run => call name fun field data spec => run field data { spec with choiceGroup := g }
  | value v => value v

namespace Rule

def ungrouped (r : Rule) : Rule := { r with spec := { r.spec with choiceGroup := none } }

/-- A rule that is in no group, with an own check that is shown the rule as it was declared. -/
def released (r : Rule) : Rule :=
  { r.ungrouped with custom := r.custom.map (Hook.inGroup r.spec.choiceGroup) }

/-- A rule whose own check does not look at the group. -/
def GroupBlind (r : Rule) : Prop :=
  ∀ name run, r.custom = some (.call name run) → ∀ field data spec g,
    run field data { spec with choiceGroup := g } = run field data spec

theorem released_eq_ungrouped {r : Rule} (h : r.GroupBlind) : r.released = r.ungrouped := by
  obtain ⟨spec, custom, requiredWhen, callback, nested⟩ := r
  cases custom with
  | none => rfl
  | some hook =>
    cases hook with
    | value v => rfl
    | call name run =>
      have hrun : (fun field data spec' =>
          run field data { spec' with choiceGroup := spec.choiceGroup }) = run := by
        funext field data spec'
        exact h name run rfl field data spec' _
      rw [released, ungrouped, Option.map_some, Hook.inGroup, hrun]

end Rule

namespace Validation

def NamedOption (spec : RuleSpec) : Prop := ∀ g, spec.choiceGroup = some g → g.optionId.IsName

/-- The rules left when the fields that do not take part are taken out and the others released. -/
inductive Leaves (takes : RuleSpec → Prop) (release : Rule → Rule) : RuleMap → RuleMap → Prop
  | nil : Leaves takes release [] []
  | out {e : String × Rule} {rules rest : RuleMap} : ¬takes e.2.spec →
      Leaves takes release rules rest → Leaves takes release (e :: rules) rest
  | keep {e : String × Rule} {rules rest : RuleMap} : takes e.2.spec →
      Leaves takes release rules rest →
        Leaves takes release (e :: rules) ((e.1, release e.2) :: rest)

def GroupAlike (e f : String × Rule) : Prop :=
  e.1 = f.1 ∧ e.2.spec.choiceGroup = f.2.spec.choiceGroup ∧ e.2.spec.label = f.2.spec.label

def Excluded (s : Setting) (t : Struct) (err : FieldError) : Prop :=
  ∃ e ∈ t.rules, ∃ g o, t.data.has e.1 = true ∧ e.2.spec.choiceGroup = some g ∧
    Chosen t.data.has g.groupId (specs t.rules) o ∧ o ≠ g.optionId ∧
      err = otherOption s.context (s.code "validator.multiple_options_chosen") (t.base ++ e.1)
        e.2.spec g

def Missing (s : Setting) (t : Struct) (err : FieldError) : Prop :=
  ∃ id g, Declares (.str id) (specs t.rules) g ∧ g.required = true ∧
    (∀ e ∈ specs t.rules, ¬Member t.data.has (.str id) e) ∧
      err = FieldError.make s.context (t.base ++ "_choice_group_" ++ id)
        (s.code "validator.no_option_chosen") [("group", .str id)]

/-- The choice groups of a struct have the errors `groups` and leave the rules `rest`. -/
structure Resolved (s : Setting) (t : Struct) (groups : List FieldError) (rest : RuleMap) :
    Prop where
  leaves : Leaves (TakesPart t.data.has (specs t.rules)) Rule.released t.rules rest
  literal : (∀ e ∈ t.rules, e.2.GroupBlind) →
    Leaves (TakesPart t.data.has (specs t.rules)) Rule.ungrouped t.rules rest
  errors : t.errors s = groups ++ (Struct.mk rest t.data t.path).errors s
  once : (groups.map FieldError.path).Nodup
  reported : ∀ err, err ∈ groups ↔ Excluded s t err ∨ Missing s t err
  silent : ∀ e ∈ t.rules, ¬TakesPart t.data.has (specs t.rules) e.2.spec → ∀ loc err,
    FailsAt s t loc err → loc.field? = some e.1 → loc = ⟨[], .site ⟨e.1, none⟩⟩ ∧ err ∈ groups
  unread : ∀ others, List.Forall₂ (fun e f => GroupAlike e f ∧
    (TakesPart t.data.has (specs t.rules) e.2.spec → e = f)) t.rules others →
      ofStruct s others t.data t.path = ofStruct s t.rules t.data t.path

variable {takes : RuleSpec → Prop} {release : Rule → Rule} {rules rest others : RuleMap}
  {s : Setting} {t : Struct} {e f : String × Rule} {r : Rule} {present : String → Bool}
  {key o : Value} {specs front back : List (String × RuleSpec)} {err : FieldError}
  {c : Choices} {groups : List FieldError}

theorem Leaves.exists (takes : RuleSpec → Prop) (release : Rule → Rule) (rules : RuleMap) :
    ∃ rest, Leaves takes release rules rest := by
  induction rules with
  | nil => exact ⟨[], .nil⟩
  | cons e rules ih =>
    obtain ⟨rest, hrest⟩ := ih
    by_cases htakes : takes e.2.spec
    · exact ⟨_, .keep htakes hrest⟩
    · exact ⟨_, .out htakes hrest⟩

theorem Leaves.congr {takes' : RuleSpec → Prop} {release' : Rule → Rule}
    (h : Leaves takes release rules rest)
    (hsame : ∀ e ∈ rules, (takes e.2.spec ↔ takes' e.2.spec) ∧ release e.2 = release' e.2) :
    Leaves takes' release' rules rest := by
  induction h with
  | nil => exact .nil
  | out hout _ ih =>
    obtain ⟨⟨htakes', -⟩, hsame⟩ := List.forall_mem_cons.mp hsame
    exact .out (htakes'.not.mp hout) (ih hsame)
  | keep htakes _ ih =>
    obtain ⟨⟨htakes', hrelease⟩, hsame⟩ := List.forall_mem_cons.mp hsame
    rw [hrelease]
    exact .keep (htakes'.mp htakes) (ih hsame)

theorem Leaves.ungrouped (h : Leaves takes Rule.released rules rest) :
    ∀ e ∈ rest, e.2.spec.choiceGroup = none := by
  induction h with
  | nil => simp
  | out _ _ ih => exact ih
  | keep _ _ ih => exact List.forall_mem_cons.mpr ⟨rfl, ih⟩

theorem checkCustom_released (r : Rule) (label name : String) (data : Table Value) :
    checkCustom r.released.custom r.released.spec label name data =
      checkCustom r.custom r.spec label name data := by
  obtain ⟨spec, custom, requiredWhen, callback, nested⟩ := r
  cases custom with
  | none => rfl
  | some hook =>
    cases hook with
    | value v => rfl
    | call hookName run =>
      simp only [Rule.released, Rule.ungrouped, Option.map_some, Hook.inGroup, checkCustom]
      split
      · rfl
      · rfl

theorem checkField_released (codes : String) (r : Rule) (label name : String) (data : Table Value) :
    checkField codes r.released.spec r.released.shape r.released.custom r.released.requiredWhen
      label name data =
        checkField codes r.spec r.shape r.custom r.requiredWhen label name data := by
  have hcontent : ∀ v, checkContent codes r.released.spec r.released.shape r.released.custom label
      name data v = checkContent codes r.spec r.shape r.custom label name data v := by
    intro v
    rw [checkContent_eq, checkContent_eq, checkCustom_released]
    rfl
  have hvalue : ∀ v, checkValue codes r.released.spec r.released.shape r.released.custom label name
      data v = checkValue codes r.spec r.shape r.custom label name data v := by
    intro v
    rw [checkValue, checkValue, hcontent]
    rfl
  simp only [checkField, hvalue]
  rfl

theorem fieldErrors_released (s : Setting) (t : Struct) (rest : RuleMap) (e : String × Rule) :
    (Struct.mk rest t.data t.path).fieldErrors s (e.1, e.2.released) = t.fieldErrors s e := by
  simp only [Struct.fieldErrors, ofField_eq_fieldErrors, fieldErrors, checkField_released]
  rfl

theorem Leaves.flatMap_fieldErrors (hadmits : ∀ spec, c.admits spec = true ↔ takes spec)
    (h : Leaves takes Rule.released rules rest) (s : Setting) (t : Struct) (left : RuleMap) :
    rest.flatMap ((Struct.mk left t.data t.path).fieldErrors s) =
      (rules.filter fun e => c.admits e.2.spec).flatMap (t.fieldErrors s) := by
  induction h with
  | nil => rfl
  | @out e rules rest hout _ ih =>
    have hskip : ¬c.admits e.2.spec = true := fun hadmitted => hout ((hadmits _).mp hadmitted)
    rw [ih, List.filter_cons, if_neg hskip]
  | @keep e rules rest htakes _ ih =>
    rw [List.filter_cons, if_pos ((hadmits _).mpr htakes), List.flatMap_cons, List.flatMap_cons, ih,
      fieldErrors_released]

theorem Struct.errors_of_leaves (hnamed : ∀ e ∈ t.rules, NamedGroup e.2.spec)
    (h : Leaves t.Admits Rule.released t.rules rest) (s : Setting) :
    t.errors s = t.groupErrors s ++ (Struct.mk rest t.data t.path).errors s := by
  obtain ⟨c, hc⟩ := settled_of_named hnamed
  have hadmits : ∀ spec, c.admits spec = true ↔ t.Admits spec :=
    fun spec => (admits_iff_of_settled hc).symm
  have hrest := errors_of_ungrouped (t := ⟨rest, t.data, t.path⟩) (s := s) h.ungrouped
  rw [hrest, errors, ofStruct_of_settled hc, h.flatMap_fieldErrors hadmits]

theorem choices_congr {ctx : Context} {code base : String} {data : Table Value}
    (h : List.Forall₂ GroupAlike rules others) (c : Choices) :
    choices ctx code base data (Validation.specs rules) c =
      choices ctx code base data (Validation.specs others) c := by
  induction h generalizing c with
  | nil => rfl
  | @cons e f rules others halike _ ih =>
    obtain ⟨name, r⟩ := e
    obtain ⟨name', r'⟩ := f
    obtain ⟨hname, hgroup, hlabel⟩ := halike
    obtain rfl : name = name' := hname
    have hgroup : r.spec.choiceGroup = r'.spec.choiceGroup := hgroup
    have hlabel : r.spec.label = r'.spec.label := hlabel
    have ih : ∀ c, choices ctx code base data (rules.map fun r => (r.1, r.2.spec)) c =
      choices ctx code base data (others.map fun r => (r.1, r.2.spec)) c := ih
    simp only [Validation.specs, List.map_cons, choices, otherOption, hgroup, hlabel, ih]

theorem ofFields_congr {base : String} {data : Table Value}
    (h : List.Forall₂ (fun e f => GroupAlike e f ∧ (c.admits e.2.spec = true → e = f)) rules others)
    (s : Setting) : ofFields s c data base rules = ofFields s c data base others := by
  induction h with
  | nil => rfl
  | @cons e f rules others halike _ ih =>
    obtain ⟨⟨-, hgroup, -⟩, hsame⟩ := halike
    rw [ofFields, ofFields, ih]
    by_cases hadmits : c.admits e.2.spec = true
    · rw [hsame hadmits]
    · have hadmits' : ¬c.admits f.2.spec = true := by
        rwa [Choices.admits, ← hgroup]
      rw [if_neg hadmits, if_neg hadmits']

theorem Chosen.exists_member (h : Chosen present key specs o) :
    ∃ e ∈ specs, ∃ g, e.2.choiceGroup = some g ∧ g.optionId = o := by
  induction h with
  | @here e rest g _ hg _ => exact ⟨e, List.mem_cons_self, g, hg, rfl⟩
  | later _ _ ih =>
    obtain ⟨e, he, hmember⟩ := ih
    exact ⟨e, List.mem_cons_of_mem _ he, hmember⟩

theorem chosen_append_of_none (hno : ∀ e ∈ front, ¬Member present key e) :
    Chosen present key (front ++ back) o ↔ Chosen present key back o := by
  induction front with
  | nil => rfl
  | cons e front ih =>
    obtain ⟨hhead, hno⟩ := List.forall_mem_cons.mp hno
    rw [List.cons_append, chosen_cons_of_not_member hhead, ih hno]

theorem Chosen.before {e : String × RuleSpec} {g : ChoiceGroup} (hp : present e.1 = true)
    (hg : e.2.choiceGroup = some g) (h : Chosen present g.groupId (front ++ e :: back) o)
    (hother : o ≠ g.optionId) : Chosen present g.groupId front o := by
  by_cases hsome : ∃ f ∈ front, Member present g.groupId f
  · obtain ⟨o', ho'⟩ := exists_chosen_iff.mpr hsome
    rwa [h.unique (ho'.append _)]
  · have hno : ∀ f ∈ front, ¬Member present g.groupId f :=
      fun f hf hmember => hsome ⟨f, hf, hmember⟩
    rw [chosen_append_of_none hno, chosen_cons_of_member hp hg rfl] at h
    exact absurd h.symm hother

theorem excluded_iff (hoptions : ∀ e ∈ t.rules, NamedOption e.2.spec) :
    Excluded s t err ↔ ∃ a, GroupFails s t (.site a) err := by
  constructor
  · rintro ⟨e, he, g, o, hhas, hg, ho, hother, rfl⟩
    obtain ⟨front, back, hrules⟩ := List.append_of_mem he
    have hname : o.IsName := by
      obtain ⟨f, hf, g', hg', rfl⟩ := ho.exists_member
      obtain ⟨r, hr, rfl⟩ := List.mem_map.mp hf
      exact hoptions r hr g' hg'
    have hsame : o.same g.optionId = false := by
      rw [← Bool.not_eq_true, hname.same_iff (hoptions e he g hg)]
      exact hother
    rw [hrules, Validation.specs, List.map_append, List.map_cons] at ho
    exact ⟨_, .clash hrules hhas hg (ho.before hhas hg hother) hsame⟩
  · rintro ⟨a, hfails⟩
    cases hfails with
    | @clash front back e g o hrules hhas hg ho hsame =>
      have he : e ∈ t.rules := by simp [hrules]
      have hname := hoptions e he g hg
      refine ⟨e, he, g, o, hhas, hg, ?_, ?_, rfl⟩
      · rw [hrules, Validation.specs, List.map_append]
        exact ho.append _
      · rintro rfl
        rw [(hname.same_iff hname).mpr rfl] at hsame
        cases hsame

theorem missing_iff : Missing s t err ↔ ∃ id, GroupFails s t (.group id) err := by
  constructor
  · rintro ⟨id, g, hdeclares, hrequired, hno, rfl⟩
    exact ⟨id, .unchosen hdeclares hrequired hno⟩
  · rintro ⟨id, hfails⟩
    cases hfails with
    | unchosen hdeclares hrequired hno => exact ⟨id, _, hdeclares, hrequired, hno, rfl⟩

theorem mem_groupErrors_iff_reported (htext : ∀ e ∈ t.rules, TextGroup e.2.spec)
    (hoptions : ∀ e ∈ t.rules, NamedOption e.2.spec) :
    err ∈ t.groupErrors s ↔ Excluded s t err ∨ Missing s t err := by
  rw [Struct.mem_groupErrors_iff htext, excluded_iff hoptions, missing_iff]
  constructor
  · rintro ⟨spot, hfails⟩
    cases spot with
    | site a => exact .inl ⟨a, hfails⟩
    | group id => exact .inr ⟨id, hfails⟩
  · rintro (⟨a, hfails⟩ | ⟨id, hfails⟩)
    · exact ⟨_, hfails⟩
    · exact ⟨_, hfails⟩

theorem FailsAt.of_not_admits {loc : Location} (hnamed : WellNamed t.rules) (he : e ∈ t.rules)
    (hout : ¬t.Admits e.2.spec) (h : FailsAt s t loc err) (hfield : loc.field? = some e.1) :
    loc = ⟨[], .site ⟨e.1, none⟩⟩ ∧ err ∈ t.groupErrors s := by
  -- a field of this name that takes part would be this one
  have hnone : ∀ f ∈ t.rules, t.Admits f.2.spec → f.1 ≠ e.1 := by
    rintro f hf hadmits hname
    obtain rfl := List.inj_on_of_nodup_map hnamed.nodup hf he hname
    exact hout hadmits
  obtain ⟨sites, spot⟩ := loc
  obtain ⟨w, hvisits, hfails⟩ := h
  cases hvisits with
  | part henters _ =>
    cases henters with
    | intro hf hadmits => exact absurd (Option.some.inj hfield) (hnone _ hf hadmits)
  | here =>
    cases hfails with
    | own hf hadmits => exact absurd (Option.some.inj hfield) (hnone _ hf hadmits)
    | group hgroup =>
      refine ⟨?_, (Struct.mem_groupErrors_iff hnamed.textGroups).mpr ⟨spot, hgroup⟩⟩
      cases hgroup with
      | clash =>
        have hname : _ = e.1 := Option.some.inj hfield
        rw [← hname]
      | unchosen => cases hfield

theorem ofStruct_unread (hnamed : ∀ e ∈ t.rules, NamedGroup e.2.spec)
    (h : List.Forall₂ (fun e f => GroupAlike e f ∧ (t.Admits e.2.spec → e = f)) t.rules others)
    (s : Setting) : ofStruct s others t.data t.path = ofStruct s t.rules t.data t.path := by
  obtain ⟨c, hc⟩ := Struct.settled_of_named hnamed
  obtain ⟨errors, hchoices⟩ := t.choices_of_settled hc s.context
    (s.code "validator.multiple_options_chosen")
  have halike : List.Forall₂ GroupAlike t.rules others := h.imp fun _ _ hboth => hboth.1
  have hfields : ofFields s c t.data t.base t.rules = ofFields s c t.data t.base others :=
    ofFields_congr (h.imp fun _ _ hboth => ⟨hboth.1, fun hadmits => hboth.2 ⟨c, hc, hadmits⟩⟩) s
  rw [Struct.base] at hchoices hfields
  rw [ofStruct, ofStruct, structOutcome, structOutcome, ← choices_congr halike, hchoices]
  dsimp only
  rw [hfields]

theorem exists_resolved (s : Setting) (hnamed : WellNamed t.rules)
    (hoptions : ∀ e ∈ t.rules, NamedOption e.2.spec) : ∃ groups rest, Resolved s t groups rest := by
  have hgroups : ∀ e ∈ t.rules, NamedGroup e.2.spec := hnamed.namedGroups
  have htakes : ∀ e ∈ t.rules,
      (t.Admits e.2.spec ↔ TakesPart t.data.has (Validation.specs t.rules) e.2.spec) :=
    fun e he => Struct.admits_iff_takesPart hgroups (hgroups e he)
  obtain ⟨rest, hleaves⟩ := Leaves.exists t.Admits Rule.released t.rules
  refine ⟨t.groupErrors s, rest, ?_, ?_, ?_, ?_, ?_, ?_, ?_⟩
  · exact hleaves.congr fun e he => ⟨htakes e he, rfl⟩
  · exact fun hblind =>
      hleaves.congr fun e he => ⟨htakes e he, Rule.released_eq_ungrouped (hblind e he)⟩
  · exact Struct.errors_of_leaves hgroups hleaves s
  · exact Struct.nodup_groupErrors hnamed
  · exact fun err => mem_groupErrors_iff_reported hnamed.textGroups hoptions
  · intro e he hout loc err hfails hfield
    exact hfails.of_not_admits hnamed he ((htakes e he).not.mpr hout) hfield
  · intro others hothers
    have hread : List.Forall₂ (fun e f => GroupAlike e f ∧ (t.Admits e.2.spec → e = f)) t.rules
        others := by
      refine ((List.forall₂_and_left _ _).mpr ⟨htakes, hothers⟩).imp ?_
      rintro e f ⟨htakes, halike, hsame⟩
      exact ⟨halike, fun hadmits => hsame (htakes.mp hadmits)⟩
    exact ofStruct_unread hgroups hread s

end Validation

open Validation

/-- Choice groups are resolved struct by struct, at any depth, and all that they come to is
    reported. -/
theorem Validator.validate_resolves (v : Validator) {rules : RuleMap} (hnamed : WellNamed rules)
    (data : Value) (parent : String) :
    ∃ errors, (v.validate data (some rules) parent).1 = .ok errors ∧
      ∀ sites t, Visits v.setting ⟨rules, partsOf data, parent⟩ sites t →
        (∀ e ∈ t.rules, NamedOption e.2.spec) →
          (∀ err ∈ t.errors v.setting, errors.get? err.path = some err) ∧
            ∃ groups rest, Resolved v.setting t groups rest := by
  refine ⟨_, v.validate_of_settled (Struct.settled_of_wellNamed hnamed), ?_⟩
  rw [partsOf_eq_fields]
  intro sites t hvisits hoptions
  have hinner : WellNamed t.rules := hvisits.wellNamed hnamed
  refine ⟨?_, exists_resolved v.setting hinner hoptions⟩
  intro err herr
  have hall := keepsAll_of_wellNamed (t := ⟨rules, data.fields, parent⟩) v.setting hnamed
  have hcontained := hvisits.errors_contained (Struct.settled_of_wellNamed hinner)
  refine hall.kept err ?_
  rw [hall.written, ← mem_errors_iff_failsAt hnamed]
  exact hcontained.subset herr

def paymentRules : RuleMap :=
  [("card", { spec := { choiceGroup := some ⟨.str "means", .int 1, true⟩ } }),
  ("cash", {
    spec := { choiceGroup := some ⟨.str "means", .int 2, false⟩ }
    custom := some (.call "counted" fun _ _ _ => .error (.raised "no till")) }),
  ("mail", {
    spec := { required := some true, choiceGroup := some ⟨.str "receipt", .str "m", true⟩ } }),
  ("note", { spec := { required := some true } })]

def paymentRule : Rule :=
  { spec := { type := some (.known .object) }, nested := some paymentRules }

def saleRules : RuleMap := [("payment", paymentRule)]

def payment : Table Value := [("cash", .str "exact"), ("card", .str "4711")]

theorem wellNamed_saleRules : WellNamed saleRules := by
  have hpayment : WellNamed paymentRules :=
    .intro (by decide) (by decide) (by simp [paymentRules, TextGroup])
      (by simp [paymentRules, Rule.nestedRules, wellNamed_nil])
  exact .intro (by decide) (by decide) (by simp [saleRules, paymentRule, TextGroup])
    (by simp [saleRules, paymentRule, Rule.nestedRules, hpayment])

theorem visits_payment : Visits {} ⟨saleRules, [("payment", .map payment)], ""⟩
    [⟨"payment", none⟩] ⟨paymentRules, payment, "payment"⟩ :=
  .part (.intro (e := ("payment", paymentRule)) (v := .map payment) List.mem_cons_self
    ⟨{}, rfl, rfl⟩ rfl (.struct rfl)) .here

theorem payment_resolved : WellNamed saleRules ∧
    (∀ e ∈ paymentRules, NamedOption e.2.spec) ∧
      ∃ errors, (Validator.validate {} (.map [("payment", .map payment)]) (some saleRules) "").1 =
        .ok errors ∧
          (∃ groups rest, Resolved {} ⟨paymentRules, payment, "payment"⟩ groups rest) ∧
            Table.names errors =
              ["payment.cash", "payment._choice_group_receipt", "payment.note"] := by
  have hoptions : ∀ e ∈ paymentRules, NamedOption e.2.spec := by
    simp [paymentRules, NamedOption, Value.IsName]
  refine ⟨wellNamed_saleRules, hoptions, ?_⟩
  obtain ⟨errors, hok, hstructs⟩ :=
    Validator.validate_resolves {} wellNamed_saleRules (.map [("payment", .map payment)]) ""
  have hnames : ((Validator.validate {} (.map [("payment", .map payment)])
      (some saleRules) "").1.toOption.map Table.names) =
        some ["payment.cash", "payment._choice_group_receipt", "payment.note"] := by
    decide +kernel
  rw [hok] at hnames
  exact ⟨errors, hok, (hstructs _ _ visits_payment hoptions).2, Option.some.inj hnames⟩

end FieldRules
