import FieldRules.Proofs.Validation.Errors
import FieldRules.Proofs.Validation.FieldMeets
import FieldRules.Proofs.Validation.Groups

namespace FieldRules

namespace Validation

inductive PartOf (shape : Shape) (path : String) (v : Value) : Table Value → String → Prop
  | struct : shape = .struct → PartOf shape path v v.fields path
  | item {i : Nat} {w : Value} : shape = .arrayOfStructs → (v.items?.getD [])[i]? = some w →
      PartOf shape path v w.fields (path ++ indexed i)

/-- Data conforms to rules: its groups are in order, and every field that takes part is met, down
    through the structs in its value. -/
inductive Conforms : RuleMap → Table Value → String → Prop
  | struct {rules : RuleMap} {data : Table Value} {parent : String} :
      GroupsMet data.has (specs rules) →
      (∀ e ∈ rules, TakesPart data.has (specs rules) e.2.spec →
        FieldMeets e.2 e.1 (baseOf parent) data) →
      (∀ e ∈ rules, TakesPart data.has (specs rules) e.2.spec →
        ∀ v, data.get? e.1 = some v → v.isEmpty = false →
          ∀ inner path, PartOf e.2.shape (baseOf parent ++ e.1) v inner path →
            Conforms e.2.nestedRules inner path) →
      Conforms rules data parent

inductive NamedGroups : RuleMap → Prop
  | intro {rules : RuleMap} :
      (∀ e ∈ rules, ∀ g, e.2.spec.choiceGroup = some g → g.groupId.IsName ∧ g.optionId.IsName) →
      (∀ e ∈ rules, NamedGroups e.2.nestedRules) → NamedGroups rules

variable {shape : Shape} {path parent name base : String} {v : Value} {data inner : Table Value}
  {s : Setting} {r : Rule} {rules : RuleMap} {c : Choices}

theorem mem_structsIn_items {i : Nat} {vs : List Value} :
    (inner, path) ∈ structsIn.items parent i vs ↔
      ∃ j w, vs[j]? = some w ∧ w.fields = inner ∧ parent ++ indexed (i + j) = path := by
  induction vs generalizing i with
  | nil => simp [structsIn.items]
  | cons v vs ih =>
    rw [structsIn.items, List.mem_cons, ih, Prod.mk.injEq]
    constructor
    · rintro (⟨rfl, rfl⟩ | ⟨j, w, hj, hinner, hpath⟩)
      · exact ⟨0, v, rfl, rfl, rfl⟩
      · refine ⟨j + 1, w, hj, hinner, ?_⟩
        rwa [Nat.add_comm j 1, ← Nat.add_assoc]
    · rintro ⟨j, w, hj, hinner, hpath⟩
      cases j with
      | zero =>
        cases hj
        exact .inl ⟨hinner.symm, hpath.symm⟩
      | succ j =>
        refine .inr ⟨j, w, hj, hinner, ?_⟩
        rwa [Nat.add_assoc, Nat.add_comm 1 j]

theorem mem_structsIn_iff : (inner, path) ∈ structsIn shape parent v ↔
    PartOf shape parent v inner path := by
  constructor
  · intro h
    unfold structsIn at h
    split at h
    · cases List.mem_singleton.mp h
      exact .struct rfl
    · obtain ⟨j, w, hj, rfl, rfl⟩ := mem_structsIn_items.mp h
      rw [Nat.zero_add]
      exact .item rfl hj
    · cases h
  · intro h
    cases h with
    | struct hshape =>
      rw [hshape]
      exact List.mem_singleton.mpr rfl
    | @item i w hshape hw =>
      rw [hshape]
      exact mem_structsIn_items.mpr ⟨i, w, hw, rfl, by rw [Nat.zero_add]⟩

theorem eachStruct_clean_iff {validate : Table Value → String → Outcome}
    {structs : List (Table Value × String)} : eachStruct validate structs = ([], none) ↔
      ∀ p ∈ structs, validate p.1 p.2 = ([], none) := by
  induction structs with
  | nil => simp [eachStruct]
  | cons p structs ih =>
    obtain ⟨data, path⟩ := p
    rw [List.forall_mem_cons, ← ih, eachStruct]
    split
    next hv => simp [hv]
    next errors hv =>
      dsimp only
      rw [hv]
      simp [Prod.ext_iff, and_assoc]

theorem ofField_eq_fieldErrors (s : Setting) (name : String) (data : Table Value) (base : String)
    (r : Rule) : ofField s name data base r = fieldErrors s r.spec r.shape r.custom r.requiredWhen
      name data base fun inner path => ofStruct s r.nestedRules inner path := by
  obtain ⟨spec, custom, requiredWhen, callback, nested⟩ := r
  cases nested with
  | some rules => exact ofField.eq_2 ..
  | none => exact ofField.eq_1 ..

theorem fieldErrors_eq_nil_iff {spec : RuleSpec} {custom : Option (Hook Check)}
    {requiredWhen : Option (Hook Requirement)} {validate : Table Value → String → Outcome} :
    fieldErrors s spec shape custom requiredWhen name data base validate = [] ↔
      ∃ o, checkField s.codes spec shape custom requiredWhen (labelOf base name spec) name data =
          .ok o ∧
        ∀ v, o = some v → eachStruct validate (structsIn shape (base ++ name) v) = ([], none) := by
  rw [fieldErrors, ← labelOf]
  generalize checkField s.codes spec shape custom requiredWhen (labelOf base name spec) name data =
    checked
  cases checked with
  | error stop => simp
  | ok o =>
    cases o with
    | none => simp
    | some v =>
      simp only [Except.ok.injEq, exists_eq_left', Option.some.injEq, forall_eq']
      split
      next heach => simp [heach]
      next heach => simp [heach]

theorem ofField_eq_nil_iff : ofField s name data base r = [] ↔ FieldMeets r name base data ∧
    ∀ v, data.get? name = some v → v.isEmpty = false →
      ∀ inner path, PartOf r.shape (base ++ name) v inner path →
        ofStruct s r.nestedRules inner path = ([], none) := by
  rw [ofField_eq_fieldErrors, fieldErrors_eq_nil_iff]
  simp only [checkField_eq_ok_iff, eachStruct_clean_iff, Prod.forall, mem_structsIn_iff]
  constructor
  · rintro ⟨o, ⟨hmeets, rfl⟩, hparts⟩
    refine ⟨hmeets, ?_⟩
    intro v hget hv
    exact hparts v (Option.filter_eq_some_iff.mpr ⟨hget, by simp [hv]⟩)
  · rintro ⟨hmeets, hparts⟩
    refine ⟨_, ⟨hmeets, rfl⟩, ?_⟩
    intro v hv
    obtain ⟨hget, hnot⟩ := Option.filter_eq_some_iff.mp hv
    exact hparts v hget (by simpa using hnot)

theorem ofFields_eq_nil_iff : ofFields s c data base rules = [] ↔
    ∀ e ∈ rules, c.admits e.2.spec = true → ofField s e.1 data base e.2 = [] := by
  constructor
  · exact ofField_of_ofFields
  · intro h
    induction rules with
    | nil => rw [ofFields]
    | cons e rules ih =>
      obtain ⟨name, r⟩ := e
      rw [ofFields, ih fun e he => h e (List.mem_cons_of_mem _ he), List.append_nil]
      split
      next hadmits => exact h _ List.mem_cons_self hadmits
      next => rfl

theorem NamedGroups.namedGroup (h : NamedGroups rules) : ∀ e ∈ specs rules, NamedGroup e.2 := by
  obtain ⟨hgroups, -⟩ := h
  intro f hf g hg
  obtain ⟨e, he, rfl⟩ := List.mem_map.mp hf
  exact (hgroups e he g hg).1

theorem NamedGroups.wellGrouped (h : NamedGroups rules) :
    ∀ e ∈ specs rules, WellGrouped e.2 := by
  obtain ⟨hgroups, -⟩ := h
  intro f hf g hg
  obtain ⟨e, he, rfl⟩ := List.mem_map.mp hf
  obtain ⟨hid, hoption⟩ := hgroups e he g hg
  exact ⟨(hid.same_iff hid).mpr rfl, (hoption.same_iff hoption).mpr rfl⟩

theorem ofStruct_clean_iff (h : NamedGroups rules) : ofStruct s rules data parent = ([], none) ↔
    GroupsMet data.has (specs rules) ∧
      ∀ e ∈ rules, TakesPart data.has (specs rules) e.2.spec →
        ofField s e.1 data (baseOf parent) e.2 = [] := by
  obtain ⟨errors, c, hc, -⟩ := choices_total s.context
    (s.code "validator.multiple_options_chosen") (baseOf parent) data h.namedGroup {}
  have hadmits : ∀ e ∈ rules, (c.admits e.2.spec = true ↔
      TakesPart data.has (specs rules) e.2.spec) := by
    intro e he
    exact admits_iff h.namedGroup hc (h.namedGroup _ (List.mem_map_of_mem he))
  rw [ofStruct, structOutcome, hc]
  dsimp only
  rw [Prod.mk.injEq, List.append_eq_nil_iff, groups_clean_iff h.namedGroup h.wellGrouped hc,
    ofFields_eq_nil_iff]
  constructor
  · rintro ⟨⟨hgroups, hfields⟩, -⟩
    exact ⟨hgroups, fun e he hpart => hfields e he ((hadmits e he).mpr hpart)⟩
  · rintro ⟨hgroups, hfields⟩
    exact ⟨⟨hgroups, fun e he hpart => hfields e he ((hadmits e he).mp hpart)⟩, rfl⟩

theorem choices_of_ungrouped {ctx : Context} {code : String}
    {specs : List (String × RuleSpec)} (h : ∀ e ∈ specs, e.2.choiceGroup = none) :
    choices ctx code base data specs c = ([], .ok c) := by
  induction specs with
  | nil => rfl
  | cons e specs ih =>
    obtain ⟨hgroup, hspecs⟩ := List.forall_mem_cons.mp h
    simp only [choices, hgroup, ih hspecs]

theorem ofStruct_clean_iff_of_ungrouped (h : ∀ e ∈ rules, e.2.spec.choiceGroup = none) :
    ofStruct s rules data parent = ([], none) ↔
      ∀ e ∈ rules, ofField s e.1 data (baseOf parent) e.2 = [] := by
  have hspecs : ∀ e ∈ specs rules, e.2.choiceGroup = none := by
    intro f hf
    obtain ⟨e, he, rfl⟩ := List.mem_map.mp hf
    exact h e he
  have hunchosen : unchosen s.context (s.code "validator.no_option_chosen") (baseOf parent) {} =
      [] := rfl
  rw [ofStruct, structOutcome, choices_of_ungrouped hspecs]
  dsimp only
  rw [hunchosen, List.append_nil, List.nil_append, Prod.mk.injEq, ofFields_eq_nil_iff,
    and_iff_left rfl]
  refine forall₂_congr fun e he => ?_
  simp [Choices.admits, h e he]

theorem ofField_eq_nil_iff_of_scalar (h : r.shape = .scalar) :
    ofField s name data base r = [] ↔ FieldMeets r name base data := by
  rw [ofField_eq_nil_iff, and_iff_left_iff_imp]
  rintro - v - - inner path hpart
  cases hpart with
  | struct hshape => cases h.symm.trans hshape
  | item hshape => cases h.symm.trans hshape

theorem clean_iff_conforms (h : NamedGroups rules) (data : Table Value) (parent : String) :
    ofStruct s rules data parent = ([], none) ↔ Conforms rules data parent := by
  -- the rules of a field's own parts are covered by the induction on how rules are nested
  induction h generalizing data parent with
  | @intro rules hgroups hnested ih =>
    rw [ofStruct_clean_iff (.intro hgroups hnested)]
    constructor
    · rintro ⟨hmet, hfields⟩
      refine .struct hmet ?_ ?_
      · intro e he hpart
        exact (ofField_eq_nil_iff.mp (hfields e he hpart)).1
      · intro e he hpart v hget hv inner path hinner
        have hclean := (ofField_eq_nil_iff.mp (hfields e he hpart)).2 v hget hv inner path hinner
        exact (ih e he inner path).mp hclean
    · rintro ⟨hmet, hfields, hparts⟩
      refine ⟨hmet, ?_⟩
      intro e he hpart
      refine ofField_eq_nil_iff.mpr ⟨hfields e he hpart, ?_⟩
      intro v hget hv inner path hinner
      exact (ih e he inner path).mpr (hparts e he hpart v hget hv inner path hinner)

theorem ofStruct_total (h : NamedGroups rules) (s : Setting) (data : Table Value)
    (parent : String) : (ofStruct s rules data parent).2 = none := by
  obtain ⟨errors, c, hc, -⟩ := choices_total s.context
    (s.code "validator.multiple_options_chosen") (baseOf parent) data h.namedGroup {}
  rw [ofStruct, structOutcome, hc]

end Validation

open Validation

theorem Validator.validate_eq_nil_iff (v : Validator) (rules : RuleMap) (data : Value)
    (parent : String) : (v.validate data (some rules) parent).1 = .ok [] ↔
      ofStruct v.setting rules data.fields parent = ([], none) := by
  simp only [validate, partsOf_eq_fields]
  rcases ofStruct v.setting rules data.fields parent with ⟨found, stopped⟩
  cases stopped with
  | some fault => simp
  | none =>
    simp only [Except.ok.injEq, Prod.mk.injEq, and_true]
    constructor
    · exact Errors.ofList_eq_nil
    · rintro rfl
      rfl

/-- A validation ends without an error exactly on data that conforms; it always ends. -/
theorem Validator.errors_empty_iff (v : Validator) (rules : RuleMap) (h : NamedGroups rules)
    (data : Value) (parent : String) :
    ∃ errors, (v.validate data (some rules) parent).1 = .ok errors ∧
      (errors = [] ↔ Conforms rules data.fields parent) := by
  have hstopped : (ofStruct v.setting rules data.fields parent).2 = none :=
    ofStruct_total h v.setting data.fields parent
  refine ⟨Errors.ofList (ofStruct v.setting rules data.fields parent).1, ?_, ?_⟩
  · simp only [validate, partsOf_eq_fields, hstopped]
  · rw [← clean_iff_conforms h, Prod.ext_iff, hstopped]
    constructor
    · exact fun hnil => ⟨Errors.ofList_eq_nil hnil, rfl⟩
    · rintro ⟨hnil, -⟩
      rw [hnil]
      rfl

def contactRules : RuleMap :=
  [("phone", { spec := { choiceGroup := some ⟨.str "contact", .int 1, true⟩ } }),
    ("mail", { spec := { choiceGroup := some ⟨.str "contact", .int 2, false⟩ } }),
    ("places", { spec := { type := some (.known .array), elementType := some (.known .object) }
                 nested := some [("city", { spec := { required := some true } })] })]

def contact (second : List (String × Value)) : Value :=
  .map [("mail", .str "a@b"), ("places", .list [.map [("city", .str "Bonn")], .map second])]

theorem namedGroups_contactRules : NamedGroups contactRules := by
  have hnil : NamedGroups [] := .intro (by simp) (by simp)
  have hplaces : NamedGroups [("city", { spec := { required := some true } })] := by
    refine .intro ?_ ?_ <;> simp [Rule.nestedRules, hnil]
  refine .intro ?_ ?_
  · simp [contactRules, Value.IsName]
  · simp [contactRules, Rule.nestedRules, hnil, hplaces]

theorem contact_conforms_iff : NamedGroups contactRules ∧
    Conforms contactRules (contact [("city", .str "Kiel")]).fields "" ∧
    ¬Conforms contactRules (contact []).fields "" := by
  have hgood : (({} : Validator).validate (contact [("city", .str "Kiel")]) (some contactRules)
      "").1.toOption.map List.isEmpty = some true := by decide +kernel
  have hbad : (({} : Validator).validate (contact []) (some contactRules)
      "").1.toOption.map List.isEmpty = some false := by decide +kernel
  refine ⟨namedGroups_contactRules, ?_, ?_⟩
  · obtain ⟨errors, herrors, hiff⟩ := Validator.errors_empty_iff {} contactRules
      namedGroups_contactRules (contact [("city", .str "Kiel")]) ""
    rw [herrors] at hgood
    exact hiff.mp (List.isEmpty_iff.mp (Option.some.inj hgood))
  · obtain ⟨errors, herrors, hiff⟩ := Validator.errors_empty_iff {} contactRules
      namedGroups_contactRules (contact []) ""
    rw [herrors] at hbad
    intro hconforms
    rw [hiff.mpr hconforms] at hbad
    cases hbad

end FieldRules
