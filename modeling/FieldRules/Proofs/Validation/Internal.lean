import FieldRules.Proofs.Validation.Options
import FieldRules.Validation.Validator

namespace FieldRules.Validation

variable {s : Setting} {name base label : String} {data : Table Value} {r : Rule} {fault : Fault}

def Fair (r : Rule) : Prop :=
  ∀ label name data fault, checkCustom r.custom r.spec label name data = .error fault →
    fault.IsVerdict ∨ fault = .brokenRow

def labelOf (base name : String) (spec : RuleSpec) : String :=
  (Text.nonempty? spec.label).getD (base ++ name)

def Breaks (codes base : String) (name : String) (r : Rule) (data : Table Value) : Prop :=
  ∃ v, Reaches codes r name data v ∧
    checkCustom r.custom r.spec (labelOf base name r.spec) name data = .error .brokenRow

theorem ofField_of_scalar (hshape : r.shape = .scalar) : ofField s name data base r =
    match checkField s.codes r.spec r.shape r.custom r.requiredWhen (labelOf base name r.spec) name
      data with
    | .error stop => [s.errorOf (base ++ name) (labelOf base name r.spec) stop.suffix stop.fault]
    | .ok _ => [] := by
  obtain ⟨validate, hv⟩ := ofField_eq s name data base r
  rw [hv, fieldErrors, ← labelOf]
  cases checkField s.codes r.spec r.shape r.custom r.requiredWhen (labelOf base name r.spec) name
      data with
  | error stop => rfl
  | ok o =>
    cases o with
    | none => rfl
    | some v =>
      rw [hshape]
      rfl

theorem path_errorOf_suffix (s : Setting) (path label suffix : String) (fault : Fault) :
    (s.errorOf path label suffix fault).path = path ++ suffix := by
  unfold Setting.errorOf
  dsimp only
  split
  · rfl
  · split <;> rfl

theorem path_errorOf (path : String) : (s.errorOf path label "" fault).path = path :=
  (path_errorOf_suffix s path label "" fault).trans String.append_empty

theorem isInternal_errorOf_of_isVerdict (h : fault.IsVerdict) (path : String) :
    (s.errorOf path label "" fault).isInternal = false := by
  obtain ⟨code, params, rfl, hcode⟩ := h
  exact hcode

theorem isInternal_errorOf_brokenRow (path : String) :
    (s.errorOf path label "" .brokenRow).isInternal = true := by
  change isInternalCode "internal.unknown_internal_error" = true
  decide

theorem ofField_cases (hcodes : isInternalCode s.codes = false) (hr : Ordinary r) (hfair : Fair r)
    (name base : String) (data : Table Value) :
    (¬Breaks s.codes base name r data ∧ (ofField s name data base r = [] ∨
      ∃ e, ofField s name data base r = [e] ∧ e.path = base ++ name ∧ e.isInternal = false)) ∨
    Breaks s.codes base name r data ∧
      ∃ e, ofField s name data base r = [e] ∧ e.path = base ++ name ∧ e.isInternal = true := by
  rw [ofField_of_scalar hr.shape]
  by_cases hbreaks : Breaks s.codes base name r data
  · obtain ⟨v, hreach, hcustom⟩ := hbreaks
    refine .inr ⟨⟨v, hreach, hcustom⟩, ?_⟩
    rw [hr.checkField_of_reaches hreach hcustom]
    exact ⟨_, rfl, path_errorOf _, isInternal_errorOf_brokenRow _⟩
  · refine .inl ⟨hbreaks, ?_⟩
    have hcases : (∃ o, checkField s.codes r.spec r.shape r.custom r.requiredWhen
        (labelOf base name r.spec) name data = .ok o) ∨
        ∃ fault, checkField s.codes r.spec r.shape r.custom r.requiredWhen
          (labelOf base name r.spec) name data = .error ⟨"", fault⟩ ∧ fault.IsVerdict := by
      rcases hr.checkField_cases hcodes (labelOf base name r.spec) name data with
        hok | hverdict | hcustom
      · exact .inl hok
      · exact .inr hverdict
      · obtain ⟨v, fault, hreach, hcustom⟩ := hcustom
        rcases hfair _ _ _ _ hcustom with hverdict | rfl
        · exact .inr ⟨fault, hr.checkField_of_reaches hreach hcustom, hverdict⟩
        · exact absurd ⟨v, hreach, hcustom⟩ hbreaks
    rcases hcases with ⟨o, ho⟩ | ⟨fault, hfault, hverdict⟩
    · rw [ho]
      exact .inl rfl
    · rw [hfault]
      exact .inr ⟨_, rfl, path_errorOf _, isInternal_errorOf_of_isVerdict hverdict _⟩

theorem paths_ofFields (hcodes : isInternalCode s.codes = false) {c : Choices} {rules : RuleMap}
    (hrules : ∀ e ∈ rules, Ordinary e.2 ∧ Fair e.2) :
    ((ofFields s c data "" rules).map FieldError.path).Sublist (Table.names rules) := by
  induction rules with
  | nil => exact List.Sublist.refl _
  | cons e rules ih =>
    obtain ⟨name, r⟩ := e
    have hrest := ih fun e he => hrules e (List.mem_cons_of_mem _ he)
    obtain ⟨hr, hfair⟩ := hrules _ List.mem_cons_self
    have hnames : Table.names ((name, r) :: rules) = name :: Table.names rules := rfl
    rw [ofFields, List.map_append, hnames]
    split
    · rcases ofField_cases hcodes hr hfair name "" data with
        ⟨-, hnil | ⟨e, he, hpath, -⟩⟩ | ⟨-, e, he, hpath, -⟩
      · rw [hnil]
        exact hrest.cons name
      · rw [he, List.map_singleton, hpath, String.empty_append]
        exact hrest.cons_cons name
      · rw [he, List.map_singleton, hpath, String.empty_append]
        exact hrest.cons_cons name
    · exact hrest.cons name

theorem exists_internal_ofFields_iff (hcodes : isInternalCode s.codes = false) {c : Choices}
    {rules : RuleMap} (hrules : ∀ e ∈ rules, Ordinary e.2 ∧ Fair e.2) :
    (∃ e ∈ ofFields s c data base rules, e.isInternal = true) ↔
      ∃ e ∈ rules, c.admits e.2.spec = true ∧ Breaks s.codes base e.1 e.2 data := by
  induction rules with
  | nil => simp [ofFields]
  | cons e rules ih =>
    obtain ⟨name, r⟩ := e
    obtain ⟨hr, hfair⟩ := hrules _ List.mem_cons_self
    have hhead : (∃ e ∈ ofField s name data base r, e.isInternal = true) ↔
        Breaks s.codes base name r data := by
      rcases ofField_cases hcodes hr hfair name base data with
        ⟨hno, hnil | ⟨e, he, -, hinternal⟩⟩ | ⟨hbreaks, e, he, -, hinternal⟩
      · simp [hnil, hno]
      · simp [he, hno, hinternal]
      · simp [he, hbreaks, hinternal]
    rw [ofFields]
    simp only [List.mem_append, or_and_right, exists_or,
      ih fun e he => hrules e (List.mem_cons_of_mem _ he), List.mem_cons]
    split
    next hadmits => rw [hhead]; simp [hadmits]
    next hadmits => simp [hadmits]

end FieldRules.Validation
