import FieldRules.Fault
import FieldRules.Proofs.Rule.Prepared
import FieldRules.Rule.Declare
import Mathlib.Data.List.Permutation

namespace FieldRules

open Outcome

namespace RuleSpec

variable {entries : List (String × Declaration)} {spec : RuleSpec}

theorem unprepared_of_ofEntries (h : ofEntries entries = .ok spec) : spec.filterType = none := by
  obtain ⟨type, -, h⟩ := bind_eq_ok.mp h
  obtain ⟨element, -, h⟩ := bind_eq_ok.mp h
  obtain ⟨-, -, h⟩ := bind_eq_ok.mp h
  obtain ⟨group, -, h⟩ := bind_eq_ok.mp h
  obtain ⟨columns, -, h⟩ := bind_eq_ok.mp h
  cases h
  rfl

end RuleSpec

namespace Rule

variable {g : Option Filter.Grammar} {r : Rule} {rules : RuleMap} {names : List String}
  {declared : List (String × List (String × Declaration))}

theorem unprepared_of_declare {entries : List (String × Declaration)}
    (h : declare entries = .ok r) : r.spec.filterType = none := by
  rw [declare] at h
  obtain ⟨spec, hspec, h⟩ := bind_eq_ok.mp h
  obtain ⟨nested, -, h⟩ := bind_eq_ok.mp h
  cases h
  exact RuleSpec.unprepared_of_ofEntries hspec

theorem unprepared_of_declareAll (h : declareAll declared = .ok rules) :
    ∀ e ∈ rules, e.2.spec.filterType = none := by
  induction declared generalizing rules with
  | nil =>
    rw [declareAll] at h
    cases h
    simp
  | cons d declared ih =>
    obtain ⟨name, entries⟩ := d
    rw [declareAll] at h
    split at h
    · cases h
    next r hr =>
      obtain ⟨rest, hrest, rfl⟩ := map_eq_ok.mp h
      rw [List.forall_mem_cons]
      exact ⟨unprepared_of_declare hr, ih hrest⟩

theorem names_of_declareAll (h : declareAll declared = .ok rules) :
    Table.names rules = Table.names declared := by
  induction declared generalizing rules with
  | nil =>
    rw [declareAll] at h
    cases h
    rfl
  | cons d declared ih =>
    obtain ⟨name, entries⟩ := d
    rw [declareAll] at h
    split at h
    · cases h
    next r hr =>
      obtain ⟨rest, hrest, rfl⟩ := map_eq_ok.mp h
      exact congrArg (name :: ·) (ih hrest)

theorem prepare_of_prepared (h : r.spec.filterType ≠ none) : r.prepare g = r := by
  rw [prepare, if_pos]
  exact Option.isSome_iff_ne_none.mpr h

theorem filterType_prepare (h : r.spec.filterType = none) :
    (r.prepare g).spec.filterType = r.spec.type := by
  rw [prepare_of_unprepared h]
  rfl

theorem prepare_prepare (h : r.spec.filterType = none) (htype : r.spec.type ≠ none) :
    (r.prepare g).prepare g = r.prepare g :=
  prepare_of_prepared (by rwa [filterType_prepare h])

theorem prepare_prepare_ne (h : r.spec.filterType = none) (htype : r.spec.type = none) :
    (r.prepare g).prepare g ≠ r.prepare g := by
  have hfirst : (r.prepare g).spec.filterType = none := (filterType_prepare h).trans htype
  have hsecond : ((r.prepare g).prepare g).spec.filterType ≠ none := by
    rw [filterType_prepare hfirst, prepare_of_unprepared h]
    exact Option.some_ne_none _
  intro heq
  rw [heq] at hsecond
  exact hsecond hfirst

theorem withColumns_withColumns (hn : names.Nodup) :
    (r.withColumns g names).withColumns g names = r.withColumns g names := by
  have hnames : Table.names (names.map fun name => (name, (none : Option String))) = names := by
    simp [Table.names, Function.comp_def]
  have hcolumns := Table.merge_merge
    (t := names.map fun name => (name, (none : Option String))) (hnames.symm ▸ hn)
    (r.spec.columns.getD [])
  unfold withColumns
  dsimp only
  rw [Option.getD_some, hcolumns]
  cases r.custom with
  | some custom => rfl
  | none => cases g <;> rfl

end Rule

namespace RuleMap

variable {g : Option Filter.Grammar} {rules : RuleMap} {name : String} {r : Rule}

theorem sortableNames_sublist (rules : RuleMap) :
    (sortableNames rules).Sublist (Table.names rules) := by
  induction rules with
  | nil => exact List.Sublist.refl _
  | cons e rules ih =>
    obtain ⟨name, r⟩ := e
    simp only [sortableNames, List.filterMap_cons, Table.names, List.map_cons] at ih ⊢
    split
    next => exact ih.cons _
    next hname =>
      split at hname
      next =>
        obtain rfl := Option.some.inj hname
        exact ih.cons_cons _
      next => cases hname

theorem sortableNames_put (h : isImplicit name = true) :
    sortableNames (Table.put rules name r) = sortableNames rules := by
  unfold sortableNames
  induction rules with
  | nil => simp [Table.put, h]
  | cons e rules ih =>
    obtain ⟨k, s⟩ := e
    by_cases hk : k = name
    · subst hk
      simp [Table.put, h]
    · rw [Table.put, if_neg hk, List.filterMap_cons, List.filterMap_cons, ih]

theorem nodup_names_preparedFields (g : Option Filter.Grammar) (rules : RuleMap) :
    (Table.names (rules.preparedFields g)).Nodup :=
  Table.nodup_names_merge (by decide) _

theorem prepare_of_kept (hn : (Table.names rules).Nodup)
    (hfirst : ["limit", "offset"] <+: Table.names rules)
    (hkept : ∀ e ∈ rules, isImplicit e.1 = false → e.2.prepare g = e.2)
    (hsorting : Table.get? rules "orderBy" = some r)
    (hcomplete : r.withColumns g (sortableNames rules) = r) : rules.prepare g = rules := by
  have hmap : (rules.map fun e => (e.1, if isImplicit e.1 then e.2 else e.2.prepare g)) =
      rules := by
    refine Eq.trans (List.map_congr_left fun e he => ?_) (List.map_id rules)
    cases himplicit : isImplicit e.1 with
    | true => simp
    | false => simp [hkept e he himplicit]
  have hfields : rules.preparedFields g = rules := by
    rw [preparedFields_eq, hmap]
    exact Table.merge_of_leading_names hn hfirst
  rw [prepare, hfields, hsorting, Option.getD_some, hcomplete]
  exact Table.put_of_get? hsorting

theorem counts_lead_names (g : Option Filter.Grammar) (rules : RuleMap) :
    ["limit", "offset"] <+: Table.names (rules.prepare g) := by
  have hfields : ["limit", "offset"] <+: Table.names (rules.preparedFields g) :=
    Table.names_prefix_merge
      [("limit", Rule.counting "limit"), ("offset", Rule.counting "offset")] _
  exact hfields.trans (Table.names_prefix_put _ _ _)

theorem prepare_prepare_of_kept
    (hkept : ∀ e ∈ rules, isImplicit e.1 = false → (e.2.prepare g).prepare g = e.2.prepare g) :
    (rules.prepare g).prepare g = rules.prepare g := by
  have hsortable : sortableNames (rules.prepare g) = sortableNames (rules.preparedFields g) :=
    sortableNames_put (by decide)
  have hnames : (sortableNames (rules.preparedFields g)).Nodup :=
    (nodup_names_preparedFields g rules).sublist (sortableNames_sublist _)
  refine prepare_of_kept (nodup_names_prepare g rules) (counts_lead_names g rules) ?_
    ((Table.get?_put _ _ _ _).trans (if_pos rfl)) ?_
  · rintro ⟨name, r⟩ he himplicit
    obtain ⟨r₀, hr₀, rfl⟩ := (origin_of_mem he).declared_of_not_isImplicit himplicit
    exact hkept _ hr₀ himplicit
  · rw [hsortable]
    exact Rule.withColumns_withColumns hnames

theorem get?_prepare_of_mem (hn : (Table.names rules).Nodup) (hr : (name, r) ∈ rules)
    (himplicit : isImplicit name = false) :
    Table.get? (rules.prepare g) name = some (r.prepare g) := by
  have hname : "orderBy" ≠ name := by
    rintro rfl
    cases himplicit
  rw [prepare, Table.get?_put, if_neg hname, get?_preparedFields_of_mem hn hr, himplicit]
  rfl

theorem kept_of_prepare_prepare (hn : (Table.names rules).Nodup) (hr : (name, r) ∈ rules)
    (himplicit : isImplicit name = false)
    (heq : (rules.prepare g).prepare g = rules.prepare g) :
    (r.prepare g).prepare g = r.prepare g := by
  have hfirst := get?_prepare_of_mem (g := g) hn hr himplicit
  have hsecond := get?_prepare_of_mem (g := g) (nodup_names_prepare g rules)
    (Table.mem_of_get?_eq_some hfirst) himplicit
  rw [heq, hfirst] at hsecond
  exact (Option.some.inj hsecond).symm

/-- Preparing again changes nothing exactly when every field but the implicit ones declares a
    type. -/
theorem prepare_prepare_iff {declared : List (String × List (String × Declaration))}
    (hn : (Table.names declared).Nodup) (h : Rule.declareAll declared = .ok rules)
    (g : Option Filter.Grammar) : (rules.prepare g).prepare g = rules.prepare g ↔
      ∀ e ∈ rules, isImplicit e.1 = false → e.2.spec.type ≠ none := by
  have hunprepared := Rule.unprepared_of_declareAll h
  rw [← Rule.names_of_declareAll h] at hn
  constructor
  · intro heq e hr himplicit htype
    exact Rule.prepare_prepare_ne (hunprepared _ hr) htype
      (kept_of_prepare_prepare hn hr himplicit heq)
  · intro htypes
    refine prepare_prepare_of_kept fun e he himplicit => ?_
    exact Rule.prepare_prepare (hunprepared e he) (htypes e he himplicit)

def travelDeclared : List (String × List (String × Declaration)) := [
  ("visa", [("type", .value (.str "uuid")), ("sortable", .value (.bool false))]),
  ("stays", [("type", .value (.str "array")), ("of", .value (.str "string")),
    ("date", .value (.bool true))]),
  ("seat", [("enum", .value (.list [.str "aisle", .str "window"]))]),
  ("orderBy", [("columns", .value (.map [("total", .str "COUNT(t.id)"), ("seat", .null)]))])]

def travelGrammar : Option Filter.Grammar := some ⟨"request.", "%Y"⟩

theorem travel_prepared_once : (Table.names travelDeclared).Nodup ∧
    ∃ rules : RuleMap, Rule.declareAll travelDeclared = .ok rules ∧
      (rules.prepare travelGrammar).prepare travelGrammar = rules.prepare travelGrammar := by
  have hn : (Table.names travelDeclared).Nodup := by decide
  have htyped : (Rule.declareAll travelDeclared).toOption.any (fun rules =>
      rules.all fun e => e.2.spec.type.isSome) = true := by cbv
  refine ⟨hn, ?_⟩
  cases hrules : Rule.declareAll travelDeclared with
  | error e =>
    rw [hrules] at htyped
    cases htyped
  | ok rules =>
    rw [hrules] at htyped
    have hall := List.all_eq_true.mp (show rules.all (·.2.spec.type.isSome) = true from htyped)
    refine ⟨rules, rfl, (prepare_prepare_iff hn hrules travelGrammar).mpr fun e he _ => ?_⟩
    exact Option.isSome_iff_ne_none.mp (hall e he)

def untypedRules : RuleMap := [("a", { spec := { type := none } })]

theorem untyped_prepared_anew :
    Rule.declareAll [("a", [("type", .value .null)])] = .ok untypedRules ∧
      (untypedRules.prepare none).prepare none ≠ untypedRules.prepare none := by
  refine ⟨by cbv, fun heq => ?_⟩
  exact Rule.prepare_prepare_ne rfl rfl
    (kept_of_prepare_prepare (by decide) List.mem_cons_self (by decide) heq)

end RuleMap

end FieldRules
