import FieldRules.Proofs.Validation.Conforming

namespace FieldRules

namespace Validation

structure Struct where
  rules : RuleMap
  data : Table Value
  path : String

structure Site where
  name : String
  index : Option Nat := none
  deriving DecidableEq, Repr

def Site.text (site : Site) : String := site.name ++ site.index.elim "" indexed

inductive PartAt (shape : Shape) (v : Value) : Option Nat → Table Value → Prop
  | struct : shape = .struct → PartAt shape v none v.fields
  | item {i : Nat} {w : Value} : shape = .arrayOfStructs → (v.items?.getD [])[i]? = some w →
      PartAt shape v (some i) w.fields

namespace Struct

def base (t : Struct) : String := baseOf t.path

def errors (s : Setting) (t : Struct) : List FieldError := (ofStruct s t.rules t.data t.path).1

def settled? (t : Struct) : Option Choices :=
  (choices {} "" "" t.data (specs t.rules) {}).2.toOption

def Admits (t : Struct) (spec : RuleSpec) : Prop :=
  ∃ c, t.settled? = some c ∧ c.admits spec = true

def checked (s : Setting) (t : Struct) (e : String × Rule) : Except Stop (Option Value) :=
  checkField s.codes e.2.spec e.2.shape e.2.custom e.2.requiredWhen (labelOf t.base e.1 e.2.spec)
    e.1 t.data

def groupErrors (s : Setting) (t : Struct) : List FieldError :=
  (choices s.context (s.code "validator.multiple_options_chosen") t.base t.data (specs t.rules)
    {}).1 ++
    t.settled?.elim [] (unchosen s.context (s.code "validator.no_option_chosen") t.base)

def fieldErrors (s : Setting) (t : Struct) (e : String × Rule) : List FieldError :=
  ofField s e.1 t.data t.base e.2

end Struct

inductive Enters (s : Setting) (t : Struct) : Site → Struct → Prop
  | intro {e : String × Rule} {v : Value} {index : Option Nat} {inner : Table Value} :
      e ∈ t.rules → t.Admits e.2.spec → t.checked s e = .ok (some v) →
        PartAt e.2.shape v index inner →
          Enters s t ⟨e.1, index⟩ ⟨e.2.nestedRules, inner, t.base ++ Site.text ⟨e.1, index⟩⟩

/-- The structs that the validation of a struct comes to, with the steps that lead there. -/
inductive Visits (s : Setting) : Struct → List Site → Struct → Prop
  | here {t : Struct} : Visits s t [] t
  | part {t u w : Struct} {site : Site} {sites : List Site} :
      Enters s t site u → Visits s u sites w → Visits s t (site :: sites) w

variable {ctx : Context} {code base path : String} {data : Table Value} {s : Setting}
  {specs : List (String × RuleSpec)} {rules : RuleMap} {c : Choices} {t u w : Struct}
  {site : Site} {sites : List Site} {e : String × Rule} {v : Value} {shape : Shape}

theorem choices_snd (ctx : Context) (code base : String) (data : Table Value)
    (specs : List (String × RuleSpec)) (c : Choices) :
    (choices ctx code base data specs c).2 = (choices {} "" "" data specs c).2 := by
  induction specs generalizing c with
  | nil => rfl
  | cons e specs ih =>
    obtain ⟨name, spec⟩ := e
    simp only [choices]
    split
    · exact ih c
    · split
      · rfl
      · split
        · exact ih _
        · split
          · exact ih _
          · split <;> exact ih _

theorem choices_of_keys (data : Table Value)
    (h : ∀ e ∈ specs, ∀ g, e.2.choiceGroup = some g → g.groupId.isKey = true) (c : Choices) :
    ∃ c', (choices {} "" "" data specs c).2 = .ok c' := by
  induction specs generalizing c with
  | nil => exact ⟨c, rfl⟩
  | cons e specs ih =>
    obtain ⟨name, spec⟩ := e
    have ih := ih fun e he => h e (List.mem_cons_of_mem _ he)
    simp only [choices]
    split
    · exact ih c
    next g hg =>
      rw [if_neg (by simp [h _ List.mem_cons_self g hg])]
      split
      · exact ih _
      · split
        · exact ih _
        · split <;> exact ih _

theorem keys_of_choices {c c' : Choices} (h : (choices {} "" "" data specs c).2 = .ok c') :
    ∀ e ∈ specs, ∀ g, e.2.choiceGroup = some g → g.groupId.isKey = true := by
  induction specs generalizing c with
  | nil => simp
  | cons e specs ih =>
    obtain ⟨name, spec⟩ := e
    simp only [choices] at h
    split at h
    next hnone =>
      intro e he g hg
      rcases List.mem_cons.mp he with rfl | he
      · cases hnone.symm.trans hg
      · exact ih h e he g hg
    next g hg =>
      split at h
      · cases h
      next hkey =>
        have hrest : ∃ c₁, (choices {} "" "" data specs c₁).2 = .ok c' := by
          split at h
          · exact ⟨_, h⟩
          · split at h
            · exact ⟨_, h⟩
            · split at h <;> exact ⟨_, h⟩
        obtain ⟨c₁, hrest⟩ := hrest
        intro e he g' hg'
        rcases List.mem_cons.mp he with rfl | he
        · cases hg.symm.trans hg'
          simpa using hkey
        · exact ih hrest e he g' hg'

namespace Struct

theorem exists_settled_iff : (∃ c, t.settled? = some c) ↔
    ∀ e ∈ t.rules, ∀ g, e.2.spec.choiceGroup = some g → g.groupId.isKey = true := by
  have hspecs : (∀ e ∈ Validation.specs t.rules, ∀ g, e.2.choiceGroup = some g →
      g.groupId.isKey = true) ↔
        ∀ e ∈ t.rules, ∀ g, e.2.spec.choiceGroup = some g → g.groupId.isKey = true :=
    List.forall_mem_map
  rw [← hspecs, settled?]
  constructor
  · rintro ⟨c, hc⟩
    cases hresult : (choices {} "" "" t.data (Validation.specs t.rules) {}).2 with
    | ok c' => exact keys_of_choices hresult
    | error fault =>
      rw [hresult] at hc
      cases hc
  · intro hkeys
    obtain ⟨c, hc⟩ := choices_of_keys t.data hkeys {}
    exact ⟨c, by rw [hc]; rfl⟩

theorem admits_iff_of_settled (h : t.settled? = some c) {spec : RuleSpec} :
    t.Admits spec ↔ c.admits spec = true := by
  constructor
  · rintro ⟨c', hc', hadmits⟩
    cases h.symm.trans hc'
    exact hadmits
  · exact fun hadmits => ⟨c, h, hadmits⟩

theorem choices_of_settled (h : t.settled? = some c) (ctx : Context) (code : String) :
    ∃ errors, choices ctx code t.base t.data (Validation.specs t.rules) {} = (errors, .ok c) := by
  refine ⟨_, Prod.ext rfl ?_⟩
  rw [settled?] at h
  rw [choices_snd]
  cases hresult : (choices {} "" "" t.data (Validation.specs t.rules) {}).2 with
  | ok c' =>
    rw [hresult] at h
    exact congrArg _ (Option.some.inj h)
  | error fault =>
    rw [hresult] at h
    cases h

theorem settled_of_choices {errors : List FieldError}
    (h : choices ctx code base t.data (Validation.specs t.rules) {} = (errors, .ok c)) :
    t.settled? = some c := by
  rw [settled?, ← choices_snd ctx code base, h]
  rfl

theorem groupErrors_of_choices {errors : List FieldError}
    (h : choices s.context (s.code "validator.multiple_options_chosen") t.base t.data
      (Validation.specs t.rules) {} = (errors, .ok c)) :
    t.groupErrors s =
      errors ++ unchosen s.context (s.code "validator.no_option_chosen") t.base c := by
  rw [groupErrors, h, settled_of_choices h]
  rfl

end Struct

theorem ofFields_eq_flatMap (s : Setting) (c : Choices) (data : Table Value) (base : String)
    (rules : RuleMap) : ofFields s c data base rules =
      (rules.filter fun e => c.admits e.2.spec).flatMap fun e => ofField s e.1 data base e.2 := by
  induction rules with
  | nil => rw [ofFields]; rfl
  | cons e rules ih =>
    obtain ⟨name, r⟩ := e
    rw [ofFields, ih, List.filter_cons]
    split
    · rfl
    · rfl

theorem Struct.ofStruct_of_settled (h : t.settled? = some c) (s : Setting) :
    ofStruct s t.rules t.data t.path = (t.groupErrors s ++
      (t.rules.filter fun e => c.admits e.2.spec).flatMap (t.fieldErrors s), none) := by
  obtain ⟨errors, hc⟩ := t.choices_of_settled h s.context
    (s.code "validator.multiple_options_chosen")
  have hgroups := t.groupErrors_of_choices hc
  have hfields := ofFields_eq_flatMap s c t.data t.base t.rules
  rw [base] at hc hgroups hfields
  rw [ofStruct, structOutcome, hc]
  dsimp only
  rw [hgroups, hfields]
  rfl

theorem Struct.settled_of_ungrouped (h : ∀ e ∈ t.rules, e.2.spec.choiceGroup = none) :
    t.settled? = some {} := by
  have hspecs : ∀ e ∈ specs t.rules, e.2.choiceGroup = none := List.forall_mem_map.mpr h
  rw [settled?, choices_of_ungrouped hspecs]
  rfl

theorem Struct.errors_of_ungrouped (h : ∀ e ∈ t.rules, e.2.spec.choiceGroup = none) :
    t.errors s = t.rules.flatMap (t.fieldErrors s) := by
  have hsettled := settled_of_ungrouped h
  have hspecs : ∀ e ∈ specs t.rules, e.2.choiceGroup = none := List.forall_mem_map.mpr h
  have hnone : t.groupErrors s = [] := by
    rw [groupErrors, choices_of_ungrouped hspecs, hsettled]
    rfl
  have hall : (t.rules.filter fun e => Choices.admits {} e.2.spec) = t.rules :=
    List.filter_eq_self.mpr fun e he => by simp [Choices.admits, h e he]
  rw [errors, ofStruct_of_settled hsettled, hnone, hall, List.nil_append]

theorem eachStruct_of_total {validate : Table Value → String → Outcome}
    {structs : List (Table Value × String)} (h : ∀ p ∈ structs, (validate p.1 p.2).2 = none) :
    eachStruct validate structs = (structs.flatMap fun p => (validate p.1 p.2).1, none) := by
  induction structs with
  | nil => rfl
  | cons p structs ih =>
    obtain ⟨data, path⟩ := p
    obtain ⟨hhead, hrest⟩ := List.forall_mem_cons.mp h
    have hv : validate data path = ((validate data path).1, none) := Prod.ext rfl hhead
    rw [eachStruct, hv]
    dsimp only
    rw [ih hrest]
    rfl

theorem mem_structsIn_of_partAt {index : Option Nat} {inner : Table Value}
    (h : PartAt shape v index inner) (name : String) :
    (inner, base ++ Site.text ⟨name, index⟩) ∈ structsIn shape (base ++ name) v := by
  rw [mem_structsIn_iff]
  cases h with
  | struct hshape =>
    rw [Site.text, Option.elim, String.append_empty]
    exact .struct hshape
  | item hshape hw =>
    rw [Site.text, Option.elim, ← String.append_assoc]
    exact .item hshape hw

theorem exists_partAt {inner : Table Value} {name : String}
    (h : (inner, path) ∈ structsIn shape (base ++ name) v) :
    ∃ index, PartAt shape v index inner ∧ path = base ++ Site.text ⟨name, index⟩ := by
  cases mem_structsIn_iff.mp h with
  | struct hshape =>
    refine ⟨none, .struct hshape, ?_⟩
    rw [Site.text, Option.elim, String.append_empty]
  | item hshape hw =>
    refine ⟨some _, .item hshape hw, ?_⟩
    rw [Site.text, Option.elim, ← String.append_assoc]

namespace Struct

theorem fieldErrors_of_checked (h : t.checked s e = .ok (some v))
    (hkeys : ∀ f ∈ e.2.nestedRules, ∀ g, f.2.spec.choiceGroup = some g → g.groupId.isKey = true) :
    t.fieldErrors s e = (structsIn e.2.shape (t.base ++ e.1) v).flatMap fun p =>
      (Struct.mk e.2.nestedRules p.1 p.2).errors s := by
  have htotal : ∀ p ∈ structsIn e.2.shape (t.base ++ e.1) v,
      (ofStruct s e.2.nestedRules p.1 p.2).2 = none := by
    intro p _
    obtain ⟨c, hc⟩ := (exists_settled_iff (t := ⟨e.2.nestedRules, p.1, p.2⟩)).mpr hkeys
    rw [ofStruct_of_settled hc s]
  rw [checked, labelOf] at h
  rw [Struct.fieldErrors, ofField_eq_fieldErrors, Validation.fieldErrors, h]
  dsimp only
  rw [eachStruct_of_total htotal]
  rfl

theorem fieldErrors_of_error {stop : Stop} (h : t.checked s e = .error stop) :
    t.fieldErrors s e =
      [s.errorOf (t.base ++ e.1) (labelOf t.base e.1 e.2.spec) stop.suffix stop.fault] := by
  rw [checked, labelOf] at h
  rw [Struct.fieldErrors, ofField_eq_fieldErrors, Validation.fieldErrors, h, labelOf]

theorem fieldErrors_of_empty (h : t.checked s e = .ok none) : t.fieldErrors s e = [] := by
  rw [checked, labelOf] at h
  rw [Struct.fieldErrors, ofField_eq_fieldErrors, Validation.fieldErrors, h]

theorem fieldErrors_contained (he : e ∈ t.rules) (hadmits : t.Admits e.2.spec) :
    t.fieldErrors s e <:+: t.errors s := by
  obtain ⟨c, hc, hadmits⟩ := hadmits
  have hmem : t.fieldErrors s e ∈
      (t.rules.filter fun e => c.admits e.2.spec).map (t.fieldErrors s) :=
    List.mem_map_of_mem (List.mem_filter.mpr ⟨he, hadmits⟩)
  rw [errors, ofStruct_of_settled hc s, List.flatMap_def]
  exact (List.infix_of_mem_flatten hmem).trans (List.suffix_append _ _).isInfix

end Struct

theorem Enters.settled (h : Enters s t site u) : ∃ c, t.settled? = some c := by
  cases h with
  | intro _ hadmits =>
    obtain ⟨c, hc, -⟩ := hadmits
    exact ⟨c, hc⟩

theorem Enters.errors_contained (h : Enters s t site u) (hu : ∃ c, u.settled? = some c) :
    u.errors s <:+: t.errors s := by
  cases h with
  | @intro e v index inner he hadmits hchecked hpart =>
    refine List.IsInfix.trans ?_ (Struct.fieldErrors_contained he hadmits)
    rw [Struct.fieldErrors_of_checked hchecked (Struct.exists_settled_iff.mp hu), List.flatMap_def]
    exact List.infix_of_mem_flatten
      (List.mem_map_of_mem (mem_structsIn_of_partAt hpart e.1))

theorem Visits.settled (h : Visits s t sites w) (hw : ∃ c, w.settled? = some c) :
    ∃ c, t.settled? = some c := by
  cases h with
  | here => exact hw
  | part henters => exact henters.settled

theorem Visits.errors_contained (h : Visits s t sites w) (hw : ∃ c, w.settled? = some c) :
    w.errors s <:+: t.errors s := by
  induction h with
  | here => exact List.infix_refl _
  | part henters hvisits ih => exact (ih hw).trans (henters.errors_contained (hvisits.settled hw))

end Validation

open Validation

theorem Validator.validate_of_settled (v : Validator) {rules : RuleMap} {data : Value}
    {parent : String} (h : ∃ c, (Struct.mk rules data.fields parent).settled? = some c) :
    (v.validate data (some rules) parent).1 =
      .ok (Errors.ofList ((Struct.mk rules data.fields parent).errors v.setting)) := by
  obtain ⟨c, hc⟩ := h
  have hrun := Struct.ofStruct_of_settled hc v.setting
  simp only [validate, partsOf_eq_fields, Struct.errors, hrun]

end FieldRules
