import FieldRules.Proofs.Filter.Wording
import FieldRules.Proofs.Rule.Idempotent
import FieldRules.Proofs.Search.ValidatedCompiles

namespace FieldRules

namespace RuleMap

def sortColumns (rules : RuleMap) : Table (Option String) :=
  ((Table.get? rules "orderBy").bind (·.spec.columns)).getD []

variable {g : Option Filter.Grammar} {rules : RuleMap} {name : String} {r sorting : Rule}

theorem columns_of_prepare (hn : (Table.names rules).Nodup)
    (hsorting : Table.get? (rules.prepare g) "orderBy" = some sorting) :
    sorting.spec.columns = some (Table.merge
      ((sortableNames (rules.preparedFields g)).map fun name => (name, none)) rules.sortColumns) := by
  rw [prepare, Table.get?_put, if_pos rfl] at hsorting
  obtain rfl := Option.some.inj hsorting
  have hdeclared : ((Table.get? (rules.preparedFields g) "orderBy").getD
      Rule.sorting).spec.columns.getD [] = rules.sortColumns := by
    cases horder : Table.get? rules "orderBy" with
    | some r =>
      rw [get?_preparedFields_of_mem hn (Table.mem_of_get?_eq_some horder), sortColumns, horder]
      rfl
    | none =>
      have hnone : Table.get? (rules.preparedFields g) "orderBy" = none := by
        cases hfields : Table.get? (rules.preparedFields g) "orderBy" with
        | none => rfl
        | some s =>
          rcases get?_preparedFields hfields with ⟨r, hr, -⟩ | ⟨hl, -⟩ | ⟨ho, -⟩
          · rw [Table.get?_of_mem hn hr] at horder
            cases horder
          · exact absurd hl (by decide)
          · exact absurd ho (by decide)
      rw [hnone, sortColumns, horder]
      rfl
  rw [← hdeclared]
  rfl

theorem sortable_prepare (h : r.spec.sortable = some false) :
    (r.prepare g).spec.sortable = some false := by
  unfold Rule.prepare
  split
  · exact h
  · simp [RuleSpec.prepared, h]

theorem declared_of_sortableNames
    (h : name ∈ sortableNames (rules.preparedFields g)) :
    isImplicit name = false ∧ ∃ r, (name, r) ∈ rules ∧ r.spec.sortable ≠ some false := by
  obtain ⟨⟨n, p⟩, hp, hname⟩ := List.mem_filterMap.mp h
  dsimp only at hname
  split at hname
  next hsortable =>
    obtain rfl := Option.some.inj hname
    simp only [Bool.and_eq_true, Bool.not_eq_true'] at hsortable
    obtain ⟨himplicit, hflag⟩ := hsortable
    have hget := Table.get?_of_mem (nodup_names_preparedFields g rules) hp
    rcases get?_preparedFields hget with ⟨r, hr, rfl⟩ | ⟨rfl, -⟩ | ⟨rfl, -⟩
    · refine ⟨himplicit, r, hr, fun hno => ?_⟩
      rw [himplicit, if_neg Bool.false_ne_true, sortable_prepare hno] at hflag
      cases hflag
    · cases himplicit
    · cases himplicit
  next => cases hname

theorem listed_or_sortable (hn : (Table.names rules).Nodup)
    (hsorting : Table.get? (rules.prepare g) "orderBy" = some sorting) {column : Option String}
    (h : (sorting.spec.columns.getD []).get? name = some column) :
    (name, column) ∈ rules.sortColumns ∨
      isImplicit name = false ∧ ∃ r, (name, r) ∈ rules ∧ r.spec.sortable ≠ some false := by
  rw [columns_of_prepare hn hsorting, Option.getD_some] at h
  rcases Table.get?_merge_cases h with hlisted | hbase
  · exact .inl hlisted
  · obtain ⟨n, hn', he⟩ := List.mem_map.mp (Table.mem_of_get?_eq_some hbase)
    obtain ⟨rfl, -⟩ := Prod.mk.inj he
    exact .inr (declared_of_sortableNames hn')

end RuleMap

namespace Search

inductive SortedBy (rules : RuleMap) (table name : String) (d : Direction) : String → Prop
  | expression {r : Rule} {expression marked s : String} : isImplicit name = false →
      (name, r) ∈ rules → Text.nonempty? r.spec.sortExpression = some expression →
      Text.Replaced "{DIRECTION}".toList d.text.toList expression.toList marked.toList →
      Text.Replaced "{INVERSE_DIRECTION}".toList d.inverse.text.toList marked.toList
        s.toList → SortedBy rules table name d s
  | column {r : Rule} : isImplicit name = false → (name, r) ∈ rules →
      Text.nonempty? r.spec.sortExpression = none →
        SortedBy rules table name d (Filter.columnOf name r.spec table ++ " " ++ d.text)
  | listed {column : String} : isImplicit name = true ∨ name ∉ Table.names rules →
      (name, some column) ∈ rules.sortColumns → column ≠ "" →
        SortedBy rules table name d (column ++ " " ++ d.text)
  | aliased {column : Option String} : isImplicit name = true ∨ name ∉ Table.names rules →
      (name, column) ∈ rules.sortColumns → Text.nonempty? column = none →
        SortedBy rules table name d (table ++ "." ++ name ++ " " ++ d.text)

variable {g : Option Filter.Grammar} {rules : RuleMap} {table name : String} {d : Direction}
  {sorting : Rule}

theorem spec_prepare_sorting (g : Option Filter.Grammar) (r : Rule) :
    (r.prepare g).spec.sortExpression = r.spec.sortExpression ∧
      ∀ name table, Filter.columnOf name (r.prepare g).spec table =
        Filter.columnOf name r.spec table := by
  unfold Rule.prepare
  split <;> exact ⟨rfl, fun _ _ => rfl⟩

theorem sortedBy_withDirection {r : Rule} {expression : String} (himplicit : isImplicit name = false)
    (hr : (name, r) ∈ rules) (hexpression : Text.nonempty? r.spec.sortExpression = some expression) :
    SortedBy rules table name d (withDirection expression d) :=
  .expression himplicit hr hexpression (Filter.replaced_text _ _ _ (by decide))
    (Filter.replaced_text _ _ _ (by decide))

theorem orderExpression_of_declared {r : Rule} (himplicit : isImplicit name = false)
    (hr : (name, r) ∈ rules) (hget : Table.get? (rules.prepare g) name = some (r.prepare g)) :
    ∃ s, orderExpression (rules.prepare g) table name d = .ok s ∧
      SortedBy rules table name d s := by
  obtain ⟨hexpression, hcolumn⟩ := spec_prepare_sorting g r
  simp only [orderExpression, himplicit, Bool.false_eq_true, if_false, hget, hexpression, hcolumn]
  cases hdeclared : Text.nonempty? r.spec.sortExpression with
  | some expression => exact ⟨_, rfl, sortedBy_withDirection himplicit hr hdeclared⟩
  | none => exact ⟨_, rfl, .column himplicit hr hdeclared⟩

theorem orderExpression_of_listed {column : Option String}
    (hsorting : Table.get? (rules.prepare g) "orderBy" = some sorting)
    (hallowed : (sorting.spec.columns.getD []).get? name = some column)
    (hlisted : (name, column) ∈ rules.sortColumns)
    (hfree : isImplicit name = true ∨ name ∉ Table.names rules)
    (hget : isImplicit name = false → Table.get? (rules.prepare g) name = none) :
    ∃ s, orderExpression (rules.prepare g) table name d = .ok s ∧
      SortedBy rules table name d s := by
  have hnone : (if isImplicit name then none else Table.get? (rules.prepare g) name) = none := by
    cases himplicit : isImplicit name with
    | true => rfl
    | false => exact hget himplicit
  rw [orderExpression, hnone]
  simp only [hsorting, Option.bind_some, hallowed]
  cases hcolumn : Text.nonempty? column with
  | none => exact ⟨_, rfl, .aliased hfree hlisted hcolumn⟩
  | some text =>
    obtain ⟨rfl, htext⟩ := Option.filter_eq_some_iff.mp hcolumn
    exact ⟨_, rfl, .listed hfree hlisted (by simpa using htext)⟩

theorem orderExpression_of_has (table : String) (d : Direction) (hn : (Table.names rules).Nodup)
    (hsorting : Table.get? (rules.prepare g) "orderBy" = some sorting)
    (hname : (sorting.spec.columns.getD []).has name = true) :
    ∃ s, orderExpression (rules.prepare g) table name d = .ok s ∧
      SortedBy rules table name d s := by
  obtain ⟨column, hcolumn⟩ := Option.isSome_iff_exists.mp hname
  have hcases := RuleMap.listed_or_sortable hn hsorting hcolumn
  by_cases hdeclared : isImplicit name = false ∧ name ∈ Table.names rules
  · obtain ⟨himplicit, hm⟩ := hdeclared
    obtain ⟨⟨_, r⟩, hr, rfl⟩ := List.mem_map.mp hm
    exact orderExpression_of_declared himplicit hr (RuleMap.get?_prepare_of_mem hn hr himplicit)
  · have hfree : isImplicit name = true ∨ name ∉ Table.names rules := by
      simpa [← Bool.not_eq_true, or_iff_not_imp_left] using hdeclared
    have hlisted : (name, column) ∈ rules.sortColumns := by
      rcases hcases with hlisted | ⟨himplicit, r, hr, -⟩
      · exact hlisted
      · exact absurd ⟨himplicit, List.mem_map_of_mem hr⟩ hdeclared
    refine orderExpression_of_listed hsorting hcolumn hlisted hfree fun himplicit => ?_
    cases hget : Table.get? (rules.prepare g) name with
    | none => rfl
    | some p =>
      obtain ⟨r, hr, -⟩ :=
        (RuleMap.origin_of_get? hget).declared_of_not_isImplicit himplicit
      exact absurd ⟨himplicit, List.mem_map_of_mem hr⟩ hdeclared

theorem orderAll_forall₂ {P : String → String → Prop} {items : List String}
    (h : ∀ item ∈ items, ∃ s, orderOf rules table item = .ok s ∧ P item s) :
    ∃ out, orderAll rules table items = .ok out ∧ List.Forall₂ P items out := by
  induction items with
  | nil => exact ⟨[], rfl, .nil⟩
  | cons item items ih =>
    obtain ⟨s, hs, hp⟩ := h item List.mem_cons_self
    obtain ⟨out, hout, hall⟩ := ih fun i hi => h i (List.mem_cons_of_mem item hi)
    exact ⟨s :: out, by simp [orderAll, hs, hout, Except.map], .cons hp hall⟩

def Sorts (rules : RuleMap) (table item s : String) : Prop :=
  ∃ name d, SortItem item name d ∧ SortedBy rules table name d s ∧
    ∀ r, (name, r) ∈ rules → r.spec.sortable = some false → name ∈ Table.names rules.sortColumns

theorem listed_of_not_sortable (hn : (Table.names rules).Nodup)
    (hsorting : Table.get? (rules.prepare g) "orderBy" = some sorting)
    (hname : (sorting.spec.columns.getD []).has name = true) {r : Rule} (hr : (name, r) ∈ rules)
    (hno : r.spec.sortable = some false) : name ∈ Table.names rules.sortColumns := by
  obtain ⟨column, hcolumn⟩ := Option.isSome_iff_exists.mp hname
  rcases RuleMap.listed_or_sortable hn hsorting hcolumn with hlisted | ⟨-, r', hr', hsortable⟩
  · exact List.mem_map_of_mem hlisted
  · have hsame := (Table.get?_of_mem hn hr').symm.trans (Table.get?_of_mem hn hr)
    rw [Option.some.inj hsame] at hsortable
    exact absurd hno hsortable

/-- An accepted sort order is compiled into one expression for each of its items, in order. -/
theorem accepted_sort_compiles (g : Filter.Grammar) (rules : RuleMap)
    (hn : (Table.names rules).Nodup) (sorting : Rule)
    (hsorting : Table.get? (rules.prepare (some g)) "orderBy" = some sorting) (field : String)
    (data : Table Value) (raw : String) (hdata : data.get? field = some (.str raw))
    (hraw : raw ≠ "")
    (hok : Filter.GrammarCheck.orderBy.run g field data sorting.spec = .ok ())
    (defaultAlias : String) :
    ∃ out, orderBy (.str raw) (rules.prepare (some g)) defaultAlias = .ok out ∧
      List.Forall₂ (Sorts rules (Text.withoutEndDots defaultAlias)) (Text.pieces raw ',') out := by
  have hitems := Filter.sortItem_of_checkOrderBy hdata hraw hok
  have htruthy : (Value.str raw).truthy = true := by simpa [Value.truthy] using hraw
  rw [orderBy, htruthy]
  refine orderAll_forall₂ fun item hitem => ?_
  obtain ⟨name, d, hstands, hname⟩ := sortItem_stands (hitems item hitem)
  obtain ⟨s, hs, hsorted⟩ :=
    orderExpression_of_has (Text.withoutEndDots defaultAlias) d hn hsorting hname
  refine ⟨s, ?_, name, d, hstands, hsorted, fun r hr hno => ?_⟩
  · rw [orderOf, hstands.orderItem]
    dsimp only
    rw [ofText?_text]
    exact hs
  · exact listed_of_not_sortable hn hsorting hname hr hno

def rankedRules : RuleMap := [
  ("rank", { spec := { sortExpression := some "t.rank {DIRECTION}, t.id {INVERSE_DIRECTION}" } }),
  ("secret", { spec := { sortable := some false } }),
  ("orderBy", { spec := { columns := some [("total", some "COUNT(t.id)"), ("secret", none)] } })]

theorem ranked_sorted : (Table.names rankedRules).Nodup ∧
    ∃ sorting, Table.get? (rankedRules.prepare (some {})) "orderBy" = some sorting ∧
      Filter.GrammarCheck.orderBy.run {} "orderBy" [("orderBy", .str "rank|desc,total,secret|Asc")]
        sorting.spec = .ok () ∧
      orderBy (.str "rank|desc,total,secret|Asc") (rankedRules.prepare (some {})) "t." =
        .ok ["t.rank DESC, t.id ASC", "COUNT(t.id) ASC", "t.secret ASC"] ∧
      List.Forall₂ (Sorts rankedRules "t") ["rank|desc", "total", "secret|Asc"]
        ["t.rank DESC, t.id ASC", "COUNT(t.id) ASC", "t.secret ASC"] := by
  have hn : (Table.names rankedRules).Nodup := by decide
  obtain ⟨sorting, hsorting⟩ : ∃ sorting,
      Table.get? (rankedRules.prepare (some {})) "orderBy" = some sorting := ⟨_, rfl⟩
  have hok : Filter.GrammarCheck.orderBy.run {} "orderBy"
      [("orderBy", .str "rank|desc,total,secret|Asc")] sorting.spec = .ok () := by
    obtain rfl := Option.some.inj hsorting
    rfl
  obtain ⟨out, hout, hall⟩ := accepted_sort_compiles {} rankedRules hn sorting hsorting "orderBy"
    [("orderBy", .str "rank|desc,total,secret|Asc")] "rank|desc,total,secret|Asc" rfl (by decide)
    hok "t."
  have hread : (orderBy (.str "rank|desc,total,secret|Asc") (rankedRules.prepare (some {}))
      "t.").toOption = some ["t.rank DESC, t.id ASC", "COUNT(t.id) ASC", "t.secret ASC"] := by
    decide +kernel
  have htexts : Text.withoutEndDots "t." = "t" ∧ Text.pieces "rank|desc,total,secret|Asc" ',' =
      ["rank|desc", "total", "secret|Asc"] := by decide +kernel
  rw [hout] at hread
  obtain rfl := Option.some.inj hread
  rw [htexts.1, htexts.2] at hall
  exact ⟨hn, sorting, hsorting, hok, hout, hall⟩

end Search

end FieldRules
