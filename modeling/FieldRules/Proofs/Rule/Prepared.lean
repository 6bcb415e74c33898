import FieldRules.Filter.Prepare

namespace FieldRules

def WellGrouped (spec : RuleSpec) : Prop :=
  ∀ g, spec.choiceGroup = some g →
    g.groupId.same g.groupId = true ∧ g.optionId.same g.optionId = true

structure SearchField (r : Rule) : Prop where
  type : ∃ b, r.spec.type = some (.known b)
  unprepared : r.spec.filterType = none
  noCustom : r.custom = none
  noTemplate : Text.nonempty? r.spec.template = none
  noCallback : r.callback = none
  operands : ∀ v, r.spec.avoidBetween ≠ some (.tuple [v])
  group : WellGrouped r.spec

structure SortField (r : Rule) : Prop where
  type : r.spec.type = some (.known .string)
  noCustom : r.custom = none
  group : WellGrouped r.spec

structure SearchRules (rules : RuleMap) : Prop where
  fields : ∀ e ∈ rules, isImplicit e.1 = false → SearchField e.2
  sorting : ∀ e ∈ rules, e.1 = "orderBy" → SortField e.2
  limit : ∀ e ∈ rules, e.1 ≠ "limit"
  offset : ∀ e ∈ rules, e.1 ≠ "offset"

namespace RuleMap

variable {g : Option Filter.Grammar} {rules : RuleMap} {name : String} {r : Rule}

theorem nodup_names_prepare (g : Option Filter.Grammar) (rules : RuleMap) :
    (Table.names (rules.prepare g)).Nodup := by
  have hbase : (Table.names [("limit", Rule.counting "limit"),
      ("offset", Rule.counting "offset")]).Nodup := by decide
  exact Table.nodup_names_put (Table.nodup_names_merge hbase _) _ _

theorem get?_prepare_of_ne (h : Table.get? (rules.prepare g) name = some r)
    (hname : name ≠ "orderBy") : Table.get? (rules.preparedFields g) name = some r := by
  rw [prepare, Table.get?_put, if_neg (Ne.symm hname)] at h
  exact h

theorem preparedFields_eq (g : Option Filter.Grammar) (rules : RuleMap) : rules.preparedFields g =
    Table.merge [("limit", Rule.counting "limit"), ("offset", Rule.counting "offset")]
      (rules.map fun e => (e.1, if isImplicit e.1 then e.2 else e.2.prepare g)) := rfl

theorem get?_preparedFields (h : Table.get? (rules.preparedFields g) name = some r) :
    (∃ r₀, (name, r₀) ∈ rules ∧ r = if isImplicit name then r₀ else r₀.prepare g) ∨
      (name = "limit" ∧ r = Rule.counting "limit") ∨
      (name = "offset" ∧ r = Rule.counting "offset") := by
  rcases Table.get?_merge_cases h with hm | hbase
  · obtain ⟨⟨n, r₀⟩, hr₀, he⟩ := List.mem_map.mp hm
    obtain ⟨rfl, rfl⟩ := Prod.mk.inj he
    exact .inl ⟨r₀, hr₀, rfl⟩
  · have hm := Table.mem_of_get?_eq_some hbase
    simp only [List.mem_cons, List.not_mem_nil, or_false, Prod.mk.injEq] at hm
    exact .inr hm

theorem get?_preparedFields_of_mem (hn : (Table.names rules).Nodup) (hr : (name, r) ∈ rules) :
    Table.get? (rules.preparedFields g) name =
      some (if isImplicit name then r else r.prepare g) := by
  have hnames : Table.names (rules.map fun e =>
      (e.1, if isImplicit e.1 then e.2 else e.2.prepare g)) = Table.names rules := by
    simp [Table.names, Function.comp_def]
  rw [preparedFields_eq]
  exact Table.get?_merge_of_mem (hnames.symm ▸ hn) (List.mem_map.mpr ⟨_, hr, rfl⟩)

theorem get?_prepare_orderBy (g : Option Filter.Grammar) (rules : RuleMap) :
    ∃ s names, Table.get? (rules.prepare g) "orderBy" = some (s.withColumns g names) ∧
      (s = Rule.sorting ∨ ("orderBy", s) ∈ rules) := by
  have hput := Table.get?_put (rules.preparedFields g) "orderBy" "orderBy"
    (((Table.get? (rules.preparedFields g) "orderBy").getD Rule.sorting).withColumns g
      (sortableNames (rules.preparedFields g)))
  rw [if_pos rfl] at hput
  refine ⟨_, _, hput, ?_⟩
  cases hs : Table.get? (rules.preparedFields g) "orderBy" with
  | none => exact .inl rfl
  | some s =>
    rcases get?_preparedFields hs with ⟨r₀, hr₀, rfl⟩ | ⟨hl, -⟩ | ⟨ho, -⟩
    · exact .inr hr₀
    · exact absurd hl (by decide)
    · exact absurd ho (by decide)

theorem prepare_ne_nil (g : Option Filter.Grammar) (rules : RuleMap) : rules.prepare g ≠ [] := by
  obtain ⟨s, names, hget, -⟩ := get?_prepare_orderBy g rules
  intro h
  rw [h] at hget
  cases hget

inductive Origin (g : Option Filter.Grammar) (rules : RuleMap) : String → Rule → Prop
  | declared {name : String} {r : Rule} : isImplicit name = false → (name, r) ∈ rules →
      Origin g rules name (r.prepare g)
  | counted {label : String} {r : Rule} : label = "limit" ∨ label = "offset" →
      r = Rule.counting label ∨ (label, r) ∈ rules → Origin g rules label r
  | sorting {r : Rule} {names : List String} : r = Rule.sorting ∨ ("orderBy", r) ∈ rules →
      Origin g rules "orderBy" (r.withColumns g names)

theorem origin_of_get? (h : Table.get? (rules.prepare g) name = some r) :
    Origin g rules name r := by
  by_cases hname : name = "orderBy"
  · subst hname
    obtain ⟨s, names, hs, horigin⟩ := get?_prepare_orderBy g rules
    obtain rfl := Option.some.inj (h.symm.trans hs)
    exact .sorting horigin
  · rcases get?_preparedFields (get?_prepare_of_ne h hname) with
      ⟨r₀, hr₀, rfl⟩ | ⟨rfl, rfl⟩ | ⟨rfl, rfl⟩
    · cases himplicit : isImplicit name with
      | false => exact .declared himplicit hr₀
      | true =>
        have hlabel : name = "limit" ∨ name = "offset" := by
          simpa [isImplicit, implicitFields, hname] using himplicit
        exact .counted hlabel (.inr hr₀)
    · exact .counted (.inl rfl) (.inl rfl)
    · exact .counted (.inr rfl) (.inl rfl)

theorem origin_of_mem (h : (name, r) ∈ rules.prepare g) : Origin g rules name r :=
  origin_of_get? (Table.get?_of_mem (nodup_names_prepare g rules) h)

theorem Origin.declared_of_not_isImplicit (h : Origin g rules name r)
    (himplicit : isImplicit name = false) : ∃ r₀, (name, r₀) ∈ rules ∧ r = r₀.prepare g := by
  cases h with
  | declared _ hr => exact ⟨_, hr, rfl⟩
  | counted hlabel =>
    rcases hlabel with rfl | rfl
    · cases himplicit
    · cases himplicit
  | sorting => cases himplicit

theorem prepare_eq_append (hn : (Table.names rules).Nodup)
    (himplicit : ∀ e ∈ rules, isImplicit e.1 = false) : ∃ names, rules.prepare g =
      ("limit", Rule.counting "limit") :: ("offset", Rule.counting "offset") ::
        (rules.map fun e => (e.1, e.2.prepare g)) ++
        [("orderBy", Rule.sorting.withColumns g names)] := by
  have hmap : (rules.map fun e => (e.1, if isImplicit e.1 then e.2 else e.2.prepare g)) =
      rules.map fun e => (e.1, e.2.prepare g) := by
    apply List.map_congr_left
    intro e he
    simp [himplicit e he]
  have hnames : Table.names (rules.map fun e => (e.1, e.2.prepare g)) = Table.names rules := by
    simp [Table.names, Function.comp_def]
  have hne : ∀ name, isImplicit name = true → name ∉ Table.names rules := by
    intro name hname hm
    obtain ⟨e, he, rfl⟩ := List.mem_map.mp hm
    rw [himplicit e he] at hname
    cases hname
  have hfields : rules.preparedFields g =
      ("limit", Rule.counting "limit") :: ("offset", Rule.counting "offset") ::
        (rules.map fun e => (e.1, e.2.prepare g)) := by
    rw [preparedFields_eq, hmap]
    refine Table.merge_of_disjoint (hnames ▸ hn) ?_
    rw [hnames]
    intro name hm hbase
    rcases List.mem_cons.mp hbase with rfl | hbase
    · exact hne "limit" (by decide) hm
    · obtain rfl := List.mem_singleton.mp hbase
      exact hne "offset" (by decide) hm
  have habsent : "orderBy" ∉ Table.names (rules.preparedFields g) := by
    rw [hfields]
    have horder : "orderBy" ∉ Table.names (rules.map fun e => (e.1, e.2.prepare g)) := by
      rw [hnames]
      exact hne "orderBy" (by decide)
    simpa [Table.names] using horder
  refine ⟨sortableNames (rules.preparedFields g), ?_⟩
  rw [prepare, Table.put_of_not_mem habsent, (Table.get?_eq_none_iff _ _).mpr habsent, hfields]
  rfl

theorem mem_prepare_iff (hn : (Table.names rules).Nodup)
    (himplicit : ∀ e ∈ rules, isImplicit e.1 = false) : ∃ names, ∀ e, e ∈ rules.prepare g ↔
      e = ("limit", Rule.counting "limit") ∨ e = ("offset", Rule.counting "offset") ∨
        (∃ r, (e.1, r) ∈ rules ∧ e.2 = r.prepare g) ∨
          e = ("orderBy", Rule.sorting.withColumns g names) := by
  obtain ⟨names, hprepare⟩ := prepare_eq_append (g := g) hn himplicit
  refine ⟨names, fun e => ?_⟩
  have hmap : e ∈ (rules.map fun e => (e.1, e.2.prepare g)) ↔
      ∃ r, (e.1, r) ∈ rules ∧ e.2 = r.prepare g := by
    rw [List.mem_map]
    constructor
    · rintro ⟨f, hf, rfl⟩
      exact ⟨f.2, hf, rfl⟩
    · rintro ⟨r, hr, he⟩
      exact ⟨_, hr, Prod.ext rfl he.symm⟩
  rw [hprepare]
  simp [hmap]

end RuleMap

namespace RuleSpec

variable {spec : RuleSpec} {b : BaseType}

theorem type_prepared (h : spec.type = some (.known b)) :
    spec.prepared.type = some (.known (if b = .boolean then .boolean else .string)) := by
  cases b <;> simp [prepared, base?, h, DeclaredType.base?]

theorem effectiveBase?_prepared (h : spec.type = some (.known b)) :
    spec.prepared.effectiveBase? = some b := by
  simp [prepared, effectiveBase?, effectiveType, h, DeclaredType.truthy, DeclaredType.base?]

theorem wildcard_prepared_of_not_plain (h : spec.isPlainString spec.type = false) :
    spec.prepared.wildcard = none := by
  simp [prepared, h]

end RuleSpec

theorem Rule.prepare_of_unprepared {g : Option Filter.Grammar} {r : Rule}
    (h : r.spec.filterType = none) : r.prepare g =
      { r with spec := r.spec.prepared, custom := Filter.chosenCheck g r } := by
  simp [prepare, RuleSpec.isPrepared, h]

end FieldRules
