import FieldRules.Validation.Validator
import Mathlib.Data.List.Induction

namespace FieldRules.Validator

inductive Call where
  | validate (data : Value) (rules : Option RuleMap) (parent : String)
  | setPrefix (codes : String)
  | reset
  | validateEntity (w : World) (s : Subject) (rules : RuleMap) (codes : String)

variable {v : Validator} {w : World} {s : Subject} {rules : RuleMap} {errors : Errors}
  {name initial codes : String} {x : Value} {fault : Fault} {call : Call} {calls : List Call}

def answer? (v : Validator) : Call → Option (Except Fault Errors)
  | .validate data rules parent => some (v.validate data rules parent).1
  | .validateEntity w s rules codes => some (v.validateEntity w s rules codes).1
  | _ => none

def next (v : Validator) : Call → Validator
  | .validate data rules parent => (v.validate data rules parent).2
  | .setPrefix codes => v.setPrefix codes
  | .reset => v.reset
  | .validateEntity w s rules codes => (v.validateEntity w s rules codes).2

def after (v : Validator) (calls : List Call) : Validator := calls.foldl next v

theorem after_append (v : Validator) (earlier later : List Call) :
    v.after (earlier ++ later) = (v.after earlier).after later := List.foldl_append

def Readable (w : World) (s : Subject) (rules : RuleMap) : Prop :=
  ∀ name ∈ Table.names rules, ∃ x, w.get s name = .ok x

-- a field that can be read has an accessor, and the accessor has the label
theorem exists_label (h : w.get s name = .ok x) : ∃ label, w.label s name = .ok label := by
  unfold World.get at h
  split at h
  next => cases h
  next a ha => exact ⟨(Text.nonempty? a.label).getD name, by rw [World.label, ha]; rfl⟩

theorem entityFields_cons (h : w.get s name = .ok x) (rule : Rule) (rules : RuleMap) :
    ∃ labelled, entityFields w s ((name, rule) :: rules) =
      (entityFields w s rules).map fun fields =>
        ((name, x) :: fields.1, (name, labelled) :: fields.2) := by
  obtain ⟨label, hlabel⟩ := exists_label h
  rw [entityFields, h, hlabel]
  cases Text.nonempty? rule.spec.label with
  | some own => exact ⟨rule, by cases entityFields w s rules <;> rfl⟩
  | none =>
    refine ⟨{ rule with spec := { rule.spec with label := some label } }, ?_⟩
    cases entityFields w s rules <;> rfl

theorem entityFields_cases (w : World) (s : Subject) (rules : RuleMap) :
    (Readable w s rules ∧ ∃ fields, entityFields w s rules = .ok fields) ∨
      ∃ name ∈ Table.names rules, ∃ fault, w.get s name = .error fault ∧
        entityFields w s rules = .error fault := by
  induction rules with
  | nil => exact .inl ⟨nofun, ([], []), rfl⟩
  | cons entry rules ih =>
    obtain ⟨name, rule⟩ := entry
    cases hget : w.get s name with
    | error fault =>
      refine .inr ⟨name, List.mem_cons_self, fault, hget, ?_⟩
      rw [entityFields, hget]
      rfl
    | ok x =>
      obtain ⟨labelled, hcons⟩ := entityFields_cons hget rule rules
      rw [hcons]
      rcases ih with ⟨hreadable, fields, hfields⟩ | ⟨other, hother, fault, hfault, hfields⟩
      · rw [hfields]
        exact .inl ⟨List.forall_mem_cons.mpr ⟨⟨x, hget⟩, hreadable⟩, _, rfl⟩
      · refine .inr ⟨other, List.mem_cons_of_mem _ hother, fault, hfault, ?_⟩
        rw [hfields]
        rfl

theorem not_readable (hname : name ∈ Table.names rules) (h : w.get s name = .error fault) :
    ¬Readable w s rules := by
  intro hreadable
  obtain ⟨x, hx⟩ := hreadable name hname
  cases hx.symm.trans h

theorem validateEntity_cases (v : Validator) (w : World) (s : Subject) (rules : RuleMap)
    (codes : String) :
    (rules = [] ∧ v.validateEntity w s rules codes = (.ok [], v.reset)) ∨
      (∃ name ∈ Table.names rules, ∃ fault, w.get s name = .error fault ∧
        v.validateEntity w s rules codes = (.error fault, v)) ∨
      (rules ≠ [] ∧ Readable w s rules ∧ ∃ values labelled,
        entityFields w s rules = .ok (values, labelled) ∧
        v.validateEntity w s rules codes =
          (v.setPrefix codes).validate (.map values) (some labelled) "") := by
  unfold validateEntity
  by_cases hempty : rules = []
  · exact .inl ⟨hempty, by rw [hempty]; rfl⟩
  · rw [if_neg (by simpa using hempty)]
    rcases entityFields_cases w s rules with ⟨hread, ⟨values, labelled⟩, hfields⟩ |
      ⟨name, hname, fault, hfault, hfields⟩
    · exact .inr (.inr ⟨hempty, hread, values, labelled, hfields, by rw [hfields]⟩)
    · exact .inr (.inl ⟨name, hname, fault, hfault, by rw [hfields]⟩)

theorem context_next (v : Validator) (call : Call) : (v.next call).context = v.context := by
  cases call with
  | validate data rules parent => cases rules <;> rfl
  | setPrefix codes => rfl
  | reset => rfl
  | validateEntity w s rules codes =>
    rw [next]
    rcases validateEntity_cases v w s rules codes with ⟨-, h⟩ | ⟨_, -, _, -, h⟩ |
      ⟨-, -, _, _, -, h⟩ <;> rw [h] <;> rfl

theorem context_after (v : Validator) (calls : List Call) :
    (v.after calls).context = v.context := by
  induction calls generalizing v with
  | nil => rfl
  | cons call calls ih => exact (ih (v.next call)).trans (context_next v call)

inductive Sets : Call → String → Prop
  | setPrefix (codes : String) : Sets (.setPrefix codes) codes
  | validateEntity {w : World} {s : Subject} {rules : RuleMap} (hne : rules ≠ [])
      (hread : Readable w s rules) (codes : String) :
      Sets (.validateEntity w s rules codes) codes

theorem Sets.codes_next (h : Sets call codes) (v : Validator) : (v.next call).codes = codes := by
  cases h with
  | setPrefix => rfl
  | @validateEntity w s rules hne hread =>
    rw [next]
    rcases validateEntity_cases v w s rules codes with ⟨hempty, -⟩ | ⟨_, hname, _, hfault, -⟩ |
      ⟨-, -, _, _, -, h⟩
    · exact absurd hempty hne
    · exact absurd hread (not_readable hname hfault)
    · rw [h]
      rfl

theorem codes_next_of_not_sets (h : ∀ codes, ¬Sets call codes) (v : Validator) :
    (v.next call).codes = v.codes := by
  cases call with
  | validate data rules parent => cases rules <;> rfl
  | setPrefix codes => exact absurd (.setPrefix codes) (h codes)
  | reset => rfl
  | validateEntity w s rules codes =>
    rw [next]
    rcases validateEntity_cases v w s rules codes with ⟨-, heq⟩ | ⟨_, -, _, -, heq⟩ |
      ⟨hne, hread, -⟩
    · rw [heq]
      rfl
    · rw [heq]
    · exact absurd (.validateEntity hne hread codes) (h codes)

theorem codes_after_of_not_sets (h : ∀ call ∈ calls, ∀ codes, ¬Sets call codes)
    (v : Validator) : (v.after calls).codes = v.codes := by
  induction calls generalizing v with
  | nil => rfl
  | cons call calls ih =>
    obtain ⟨hcall, hcalls⟩ := List.forall_mem_cons.mp h
    exact (ih hcalls (v.next call)).trans (codes_next_of_not_sets hcall v)

/-- The prefix in force after calls: that of the last call that puts one in force, else the
    initial one. -/
inductive InForce (initial : String) : List Call → String → Prop
  | initial {calls : List Call} (hkept : ∀ call ∈ calls, ∀ codes, ¬Sets call codes) :
      InForce initial calls initial
  | last {earlier later : List Call} {call : Call} {codes : String} (hsets : Sets call codes)
      (hkept : ∀ call ∈ later, ∀ codes, ¬Sets call codes) :
      InForce initial (earlier ++ call :: later) codes

theorem InForce.concat (h : InForce initial calls codes) (hcall : ∀ codes, ¬Sets call codes) :
    InForce initial (calls ++ [call]) codes := by
  have hlater : ∀ later, (∀ call ∈ later, ∀ codes, ¬Sets call codes) →
      ∀ other ∈ later ++ [call], ∀ codes, ¬Sets other codes := by
    intro later hkept
    exact List.forall_mem_append.mpr ⟨hkept, List.forall_mem_singleton.mpr hcall⟩
  cases h with
  | initial hkept => exact .initial (hlater _ hkept)
  | @last earlier later setter _ hsets hkept =>
    rw [List.append_assoc, List.cons_append]
    exact .last hsets (hlater later hkept)

theorem exists_inForce (initial : String) (calls : List Call) :
    ∃ codes, InForce initial calls codes := by
  -- the last call decides, and if it puts nothing in force the calls before it do
  induction calls using List.reverseRecOn with
  | nil => exact ⟨initial, .initial nofun⟩
  | append_singleton calls call ih =>
    by_cases hcall : ∃ codes, Sets call codes
    · obtain ⟨codes, hsets⟩ := hcall
      exact ⟨codes, .last hsets nofun⟩
    · obtain ⟨codes, hcodes⟩ := ih
      exact ⟨codes, hcodes.concat (not_exists.mp hcall)⟩

theorem InForce.codes_after (h : InForce v.codes calls codes) : (v.after calls).codes = codes := by
  cases h with
  | initial hkept => exact codes_after_of_not_sets hkept v
  | @last earlier later call _ hsets hkept =>
    rw [after_append, after, List.foldl_cons, ← after, codes_after_of_not_sets hkept]
    exact hsets.codes_next (v.after earlier)

theorem inForce_iff (v : Validator) (calls : List Call) (codes : String) :
    InForce v.codes calls codes ↔ (v.after calls).codes = codes := by
  refine ⟨InForce.codes_after, ?_⟩
  rintro rfl
  obtain ⟨codes, hcodes⟩ := exists_inForce v.codes calls
  rwa [hcodes.codes_after]

def new (context : Context) (codes : String) : Validator := { context, codes }

theorem validate_eq_new (v : Validator) (data : Value) (rules : RuleMap) (parent : String) :
    v.validate data (some rules) parent =
      (new v.context v.codes).validate data (some rules) parent := rfl

theorem validateEntity_eq_new (v : Validator) (w : World) (s : Subject) (rules : RuleMap)
    (codes initial : String) : (v.validateEntity w s rules codes).1 =
      ((new v.context initial).validateEntity w s rules codes).1 := by
  rw [validateEntity, validateEntity]
  split
  · rfl
  · split <;> rfl

theorem validateEntity_of_fields {values : Table Value} {labelled : RuleMap} (hne : rules ≠ [])
    (h : entityFields w s rules = .ok (values, labelled)) (v : Validator) (codes : String) :
    v.validateEntity w s rules codes =
      (new v.context codes).validate (.map values) (some labelled) "" := by
  rw [validateEntity, if_neg (by simpa using hne), h]
  rfl

theorem errors_of_validate {data : Value} {rules : Option RuleMap} {parent : String}
    (h : (v.validate data rules parent).1 = .ok errors) :
    (v.validate data rules parent).2.errors = errors := by
  cases rules with
  | none => cases h
  | some rules =>
    unfold validate at h ⊢
    dsimp only at h ⊢
    split at h
    · cases h
    · exact Except.ok.inj h

theorem errors_of_answer (h : v.answer? call = some (.ok errors)) :
    (v.next call).errors = errors := by
  cases call with
  | validate data rules parent => exact errors_of_validate (Option.some.inj h)
  | setPrefix codes => cases h
  | reset => cases h
  | validateEntity w s rules codes =>
    rw [next]
    rw [answer?, Option.some.injEq] at h
    rcases validateEntity_cases v w s rules codes with ⟨-, heq⟩ | ⟨_, -, _, -, heq⟩ |
      ⟨-, -, _, _, -, heq⟩ <;> rw [heq] at h ⊢
    · cases h
      rfl
    · cases h
    · exact errors_of_validate h

theorem validateEntity_of_not_readable (h : ¬Readable w s rules) (v : Validator)
    (codes : String) : ∃ name ∈ Table.names rules, ∃ fault, w.get s name = .error fault ∧
      v.validateEntity w s rules codes = (.error fault, v) := by
  rcases validateEntity_cases v w s rules codes with ⟨rfl, -⟩ | hunread | ⟨-, hread, -⟩
  · exact absurd nofun h
  · exact hunread
  · exact absurd hread h

/-- After any calls a validator does what a new one of its context does under the prefix in force,
    keeps the errors that it answers, and is not touched by a call without rules or with a field
    that cannot be read. -/
structure AnswersAsNew (v : Validator) (earlier : List Call) : Prop where
  inForce : ∀ codes, InForce v.codes earlier codes ↔ (v.after earlier).codes = codes
  validate : ∀ codes, InForce v.codes earlier codes → ∀ data rules parent,
    (v.after earlier).validate data (some rules) parent =
      (new v.context codes).validate data (some rules) parent
  validateEntity : ∀ w s rules codes initial,
    ((v.after earlier).validateEntity w s rules codes).1 =
      ((new v.context initial).validateEntity w s rules codes).1
  ownPrefix : ∀ w s rules codes values labelled, rules ≠ [] →
    entityFields w s rules = .ok (values, labelled) →
      (v.after earlier).validateEntity w s rules codes =
        (new v.context codes).validate (.map values) (some labelled) ""
  kept : ∀ call errors, (v.after earlier).answer? call = some (.ok errors) →
    (v.after (earlier ++ [call])).errors = errors
  withoutRules : ∀ data parent, (v.after earlier).validate data none parent =
    (.error (.misdeclared (.rulesRequired parent)), v.after earlier)
  unread : ∀ w s rules codes, ¬Readable w s rules → ∃ name ∈ Table.names rules, ∃ fault,
    w.get s name = .error fault ∧
      (v.after earlier).validateEntity w s rules codes = (.error fault, v.after earlier)

theorem reused_answers_as_new (v : Validator) (earlier : List Call) : AnswersAsNew v earlier where
  inForce := inForce_iff v earlier
  validate codes hcodes data rules parent := by
    rw [validate_eq_new, context_after, hcodes.codes_after]
  validateEntity w s rules codes initial := by
    rw [validateEntity_eq_new _ w s rules codes initial, context_after]
  ownPrefix w s rules codes values labelled hne hfields := by
    rw [validateEntity_of_fields hne hfields, context_after]
  kept call errors hanswer := by
    rw [after_append]
    exact errors_of_answer hanswer
  withoutRules _ _ := rfl
  unread w s rules codes h := validateEntity_of_not_readable h (v.after earlier) codes

def nameRules : RuleMap := [("name", { spec := { required := some true } })]

def accountWorld : World :=
  { World.initial.declareClass "Account" none (some [("name", .str "acme")]) with
    entities := [("account", ⟨"Account", [("name", .str "acme")]⟩)]
    registered := [("Account", [("name", .ofAttribute "name" true none)])] }

def accountCalls : List Call := [
  .validate (.map []) (some nameRules) "",
  .validateEntity accountWorld (.entity "account") nameRules "account.",
  .validateEntity accountWorld (.entity "account") [("owner", { spec := {} })] "owner.",
  .validateEntity accountWorld (.entity "account") [] "empty.",
  .validate (.map []) none ""]

theorem account_calls_answered : InForce "request." accountCalls "account." ∧
    ((new {} "request.").after accountCalls).validate (.map []) (some nameRules) "" =
      (new {} "account.").validate (.map []) (some nameRules) "" ∧
    ∃ e, ((new {} "account.").validate (.map []) (some nameRules) "").1 = .ok [("name", e)] ∧
      e.code = "account.validator.missing_required_info" := by
  have hnew := reused_answers_as_new (new {} "request.") accountCalls
  have hforce : InForce "request." accountCalls "account." := (hnew.inForce "account.").mpr rfl
  exact ⟨hforce, hnew.validate _ hforce _ _ _, _, rfl, rfl⟩

end FieldRules.Validator
