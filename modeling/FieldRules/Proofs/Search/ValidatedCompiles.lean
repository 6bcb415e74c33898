import FieldRules.Proofs.Filter.Texts
import FieldRules.Proofs.Request.Validated
import FieldRules.Proofs.Search.Compilable

namespace FieldRules

namespace Filter

variable {g : Grammar} {spec : RuleSpec} {data : Table Value} {name label s : String}

theorem checkCustom_hook (check : GrammarCheck) (g : Grammar) (spec : RuleSpec)
    (label name : String) (data : Table Value) :
    ∃ l, Validation.checkCustom (some (check.hook g)) spec label name data =
      check.run g name data { spec with label := l } := by
  unfold Validation.checkCustom GrammarCheck.hook
  dsimp only
  split
  · exact ⟨spec.label, rfl⟩
  · exact ⟨some label, rfl⟩

theorem row_of_checkString (hget : data.get? name = some (.str s)) (hs : s ≠ "")
    (h : g.checkString name data spec = .ok ()) :
    (∃ ends, wildcardEnds spec.wildcard = .ok ends) ∧
      (flag spec.listAllowed = true → ∃ fields, rowOf s = .ok fields) := by
  unfold Grammar.checkString at h
  rw [informed?_str hget hs] at h
  dsimp only [bind] at h
  obtain ⟨ends, hends, h⟩ := Outcome.bind_eq_ok.mp h
  refine ⟨⟨ends, hends⟩, fun hlist => ?_⟩
  rw [if_pos hlist] at h
  obtain ⟨fields, hfields, -⟩ := Outcome.bind_eq_ok.mp h
  exact ⟨fields, hfields⟩

theorem sortItem_of_checkOrderBy (hget : data.get? name = some (.str s)) (hs : s ≠ "")
    (h : g.checkOrderBy name data spec = .ok ()) :
    ∀ item ∈ Text.pieces s ',', sortItem (spec.columns.getD []) item = true := by
  unfold Grammar.checkOrderBy at h
  rw [informed?_str hget hs] at h
  have hall : (Text.pieces s ',').all (sortItem (spec.columns.getD [])) = true := by
    by_contra hno
    have hfalse : (Text.pieces s ',').all (sortItem (spec.columns.getD [])) = false := by
      simpa using hno
    change Grammar.verdict g (.ok ((Text.pieces s ',').all _)) = .ok () at h
    rw [hfalse] at h
    cases h
  exact List.all_eq_true.mp hall

theorem items_of_row (h : flag spec.listAllowed = true → ∃ fields, rowOf s = .ok fields) :
    ∃ texts, items spec (.str s) = .ok texts := by
  cases hplain : isPlain spec with
  | false => exact ⟨_, items_of_str hplain s⟩
  | true =>
    unfold items
    simp only [Value.items?, hplain, if_true]
    split
    · exact ⟨_, rfl⟩
    next hlist => exact h (by simpa using hlist)

theorem build_empty_total {r : Rule} {v : Value} (h : items r.spec v = .ok []) (column : String)
    (names : ParamNames) : ∃ fs rest, build none r column v names = (.ok fs, rest) := by
  unfold build
  split
  · exact ⟨_, _, rfl⟩
  · rw [h]
    exact ⟨_, _, rfl⟩

end Filter

theorem isPlain_prepared {spec : RuleSpec} {b : BaseType} (h : spec.type = some (.known b)) :
    Filter.isPlain spec.prepared = spec.isPlainString spec.type := by
  unfold Filter.isPlain RuleSpec.isPlainString
  rw [RuleSpec.effectiveBase?_prepared h, h]
  rfl

theorem chosenCheck_of_plain {g : Filter.Grammar} {r : Rule} (hcustom : r.custom = none)
    (h : r.spec.isPlainString r.spec.type = true) :
    Filter.chosenCheck (some g) r = some (Filter.GrammarCheck.string.hook g) := by
  simp only [RuleSpec.isPlainString, Bool.and_eq_true, beq_iff_eq, Bool.not_eq_true'] at h
  simp [Filter.chosenCheck, hcustom, Filter.checkFor?, h, RuleSpec.base?]

theorem isLiteral_prepared {g : Filter.Grammar} {r : Rule} (hr : SearchField r)
    (h : r.spec.type = some (.known .boolean)) : Filter.isLiteral (r.prepare (some g)) = true := by
  have htemplate : Text.nonempty? r.spec.prepared.template = none := hr.noTemplate
  simp [Filter.isLiteral, Rule.prepare_of_unprepared hr.unprepared, hr.noCallback, htemplate,
    RuleSpec.effectiveBase?_prepared h]

theorem wellGrouped_prepare {g : Filter.Grammar} {rules : RuleMap} (hrules : SearchRules rules) :
    ∀ e ∈ rules.prepare (some g), WellGrouped e.2.spec := by
  rintro ⟨name, r⟩ he
  cases RuleMap.origin_of_mem he with
  | declared himplicit hr =>
    have hfield := hrules.fields _ hr himplicit
    rw [Rule.prepare_of_unprepared hfield.unprepared]
    exact hfield.group
  | counted hlabel hr =>
    rcases hr with rfl | hr
    · intro c hc
      cases hc
    · rcases hlabel with hlabel | hlabel
      · exact absurd hlabel (hrules.limit _ hr)
      · exact absurd hlabel (hrules.offset _ hr)
  | sorting hr =>
    rcases hr with rfl | hr
    · intro c hc
      cases hc
    · exact (hrules.sorting _ hr rfl).group

theorem declared_of_filterRule? {g : Filter.Grammar} {rules : RuleMap} (hrules : SearchRules rules)
    {name : String} {v : Value} {r : Rule}
    (h : Filter.filterRule? (rules.prepare (some g)) name v = some r) :
    v.isNull = false ∧ (name, r) ∈ rules.prepare (some g) ∧
      ∃ r₀, SearchField r₀ ∧ r = r₀.prepare (some g) := by
  unfold Filter.filterRule? at h
  split at h
  · cases h
  next hskip =>
    simp only [Bool.or_eq_true, not_or, Bool.not_eq_true] at hskip
    obtain ⟨himplicit, hnull⟩ := hskip
    have hget := (Option.filter_eq_some_iff.mp h).1
    obtain ⟨r₀, hr₀, rfl⟩ := (RuleMap.origin_of_get? hget).declared_of_not_isImplicit himplicit
    exact ⟨hnull, Table.mem_of_get?_eq_some hget, r₀, hrules.fields _ hr₀ himplicit, rfl⟩

theorem build_prepared_total {g : Filter.Grammar} {r : Rule} (hr : SearchField r)
    {b : BaseType} (hb : r.spec.type = some (.known b)) {name label s : String}
    {data : Table Value} (hget : data.get? name = some (.str s)) (hs : s ≠ "")
    (hcheck : Validation.checkCustom (r.prepare (some g)).custom (r.prepare (some g)).spec label
      name data = .ok ()) (column : String) (names : ParamNames) :
    ∃ fs rest, Filter.build none (r.prepare (some g)) column (.str s) names = (.ok fs, rest) := by
  rw [Rule.prepare_of_unprepared hr.unprepared] at hcheck ⊢
  have hplain := isPlain_prepared hb
  have hready : (∃ ends, Filter.wildcardEnds r.spec.prepared.wildcard = .ok ends) ∧
      ∃ texts, Filter.items r.spec.prepared (.str s) = .ok texts := by
    cases hp : r.spec.isPlainString r.spec.type with
    | true =>
      dsimp only at hcheck
      rw [chosenCheck_of_plain hr.noCustom hp] at hcheck
      obtain ⟨l, hrun⟩ := Filter.checkCustom_hook .string g r.spec.prepared label name data
      obtain ⟨hends, hrow⟩ := Filter.row_of_checkString hget hs (hrun.symm.trans hcheck)
      exact ⟨hends, Filter.items_of_row hrow⟩
    | false =>
      rw [RuleSpec.wildcard_prepared_of_not_plain hp]
      exact ⟨⟨_, rfl⟩, _, Filter.items_of_str (hplain.trans hp) s⟩
  obtain ⟨hends, texts, htexts⟩ := hready
  exact Filter.build_total
    (r := { r with spec := r.spec.prepared, custom := Filter.chosenCheck (some g) r })
    hr.noTemplate hr.noCallback ⟨hends, hr.operands⟩ htexts column names

def Checked (rules : RuleMap) (data : Table Value) : Prop :=
  ∀ name r v, (name, r) ∈ rules → data.get? name = some v → v.isEmpty = false →
    (∃ b, DeclaredType.base? r.spec.type = some b ∧ Validation.hasType b v = true) ∧
      ∃ label, Validation.checkCustom r.custom r.spec label name data = .ok ()

theorem str_of_hasType {v : Value} (h : Validation.hasType .string v = true) :
    ∃ s, v = .str s := by
  cases v with
  | str s => exact ⟨s, rfl⟩
  | _ => simp [Validation.hasType] at h

theorem items_of_isEmpty {v : Value} (hv : v.isEmpty = true) (hnull : v.isNull = false)
    (htext : v ≠ .str "") (spec : RuleSpec) : Filter.items spec v = .ok [] := by
  cases v with
  | str s =>
    have hs : s = "" := by simpa [Value.isEmpty] using hv
    exact absurd (hs ▸ rfl) htext
  | list vs =>
    obtain rfl : vs = [] := by simpa [Value.isEmpty] using hv
    rfl
  | tuple vs =>
    obtain rfl : vs = [] := by simpa [Value.isEmpty] using hv
    rfl
  | null => simp [Value.isNull] at hnull
  | _ => simp [Value.isEmpty] at hv

section Query

variable {g : Filter.Grammar} {rules : RuleMap} {data : Table Value}

theorem build_checked_total (hrules : SearchRules rules)
    (hchecked : Checked (rules.prepare (some g)) data) (hn : (Table.names data).Nodup)
    (htext : ∀ e ∈ data, e.2 ≠ .str "") {name : String} {v : Value} (he : (name, v) ∈ data)
    {r : Rule} (hr : Filter.filterRule? (rules.prepare (some g)) name v = some r)
    (column : String) (names : ParamNames) :
    ∃ fs rest, Filter.build none r column v names = (.ok fs, rest) := by
  obtain ⟨hnull, hm, r₀, hr₀, rfl⟩ := declared_of_filterRule? hrules hr
  have hget := Table.get?_of_mem hn he
  cases hempty : v.isEmpty with
  | true =>
    exact Filter.build_empty_total (items_of_isEmpty hempty hnull (htext _ he) _) column names
  | false =>
    obtain ⟨⟨b', hb', htype⟩, label, hcheck⟩ := hchecked name _ v hm hget hempty
    obtain ⟨b, hb⟩ := hr₀.type
    by_cases hbool : b = .boolean
    · exact Filter.build_literal_total (isLiteral_prepared hr₀ (hbool ▸ hb)) column v names
    · have hstring : b' = .string := by
        rw [Rule.prepare_of_unprepared hr₀.unprepared, RuleSpec.type_prepared hb,
          if_neg hbool] at hb'
        exact (Option.some.inj hb').symm
      obtain ⟨s, rfl⟩ := str_of_hasType (hstring ▸ htype)
      have hs : s ≠ "" := fun h => htext _ he (h ▸ rfl)
      exact build_prepared_total hr₀ hb hget hs hcheck column names

theorem orderBy_checked_total (hrules : SearchRules rules)
    (hchecked : Checked (rules.prepare (some g)) data) (defaultAlias : String) :
    ∃ order, Search.orderBy ((data.get? "orderBy").getD .null) (rules.prepare (some g))
      defaultAlias = .ok order := by
  obtain ⟨s, names, hget, hdeclared⟩ := RuleMap.get?_prepare_orderBy (some g) rules
  have hsort : s.spec.type = some (.known .string) ∧ s.custom = none := by
    rcases hdeclared with rfl | hm
    · exact ⟨rfl, rfl⟩
    · exact ⟨(hrules.sorting _ hm rfl).type, (hrules.sorting _ hm rfl).noCustom⟩
  refine Search.orderBy_total hget rfl (fun htrue => ?_) defaultAlias
  cases hraw : data.get? "orderBy" with
  | none =>
    rw [hraw] at htrue
    cases htrue
  | some raw =>
    rw [hraw] at htrue
    have htrue : raw.truthy = true := htrue
    have hempty : raw.isEmpty = false := by
      cases raw <;> simp_all [Value.isEmpty, Value.truthy]
    obtain ⟨⟨b, hb, htype⟩, label, hcheck⟩ :=
      hchecked "orderBy" _ raw (Table.mem_of_get?_eq_some hget) hraw hempty
    have hstring : b = .string := by
      have : DeclaredType.base? s.spec.type = some b := hb
      rw [hsort.1] at this
      exact (Option.some.inj this).symm
    obtain ⟨t, rfl⟩ := str_of_hasType (hstring ▸ htype)
    have ht : t ≠ "" := by
      rintro rfl
      cases htrue
    have hcustom : (s.withColumns (some g) names).custom =
        some (Filter.GrammarCheck.orderBy.hook g) := by
      simp [Rule.withColumns, hsort.2]
    rw [hcustom] at hcheck
    obtain ⟨l, hrun⟩ := Filter.checkCustom_hook .orderBy g (s.withColumns (some g) names).spec
      label "orderBy" data
    exact ⟨t, rfl, Filter.sortItem_of_checkOrderBy hraw ht (hrun.symm.trans hcheck)⟩

theorem query_of_checked (hrules : SearchRules rules)
    (hchecked : Checked (rules.prepare (some g)) data) (hn : (Table.names data).Nodup)
    (htext : ∀ e ∈ data, e.2 ≠ .str "") (defaultAlias : String) (select groupBy : Option String) :
    ∃ q, Search.query none data (rules.prepare (some g)) defaultAlias select none groupBy =
      .ok q := by
  obtain ⟨conditions, hconditions⟩ := Filter.compileFrom_total defaultAlias
    (fun e he r hr => build_checked_total hrules hchecked hn htext he hr) []
  obtain ⟨order, horder⟩ := orderBy_checked_total hrules hchecked defaultAlias
  have hcompile : Filter.compile none data (rules.prepare (some g)) defaultAlias =
      .ok ⟨conditions⟩ := by
    rw [Filter.compile, hconditions]
    rfl
  exact Search.query_total hcompile horder select groupBy

end Query

namespace Request

theorem emptyText_not_mem {limit : Numeral.DigitLimit} {bags : Bags} {rules : RuleMap}
    {source : String} {data : Table Value} (h : extract limit bags rules source = .ok data) :
    ∀ e ∈ data, e.2 ≠ .str "" := by
  intro e he
  obtain ⟨spec, v, -, -, hc⟩ := mem_extractFrom (extractFrom_of_extract h) e he
  exact coerce_ne_emptyText hc

theorem checked_search {g : Filter.Grammar} {rules : RuleMap} (hrules : SearchRules rules)
    {bags : Bags} {method codes : String} {ctx : Context} {data : Table Value}
    (h : validated none bags (rules.prepare (some g)) method ctx codes = .ok data) :
    Checked (rules.prepare (some g)) data ∧ (Table.names data).Nodup ∧
      ∀ e ∈ data, e.2 ≠ .str "" := by
  obtain ⟨hextract, -⟩ := validated_eq_ok h
  refine ⟨?_, ?_, emptyText_not_mem hextract⟩
  · intro name r v hr hget hv
    exact checked_of_validated (wellGrouped_prepare hrules) h hr hget hv
  · exact nodup_names_of_extract (RuleMap.nodup_names_prepare (some g) rules) hextract

/-- The data of a validated search always makes a query. -/
theorem query_of_validated (g : Filter.Grammar) (rules : RuleMap) (hrules : SearchRules rules)
    (bags : Bags) (method codes : String) (ctx : Context) (data : Table Value)
    (h : validated none bags (rules.prepare (some g)) method ctx codes = .ok data)
    (defaultAlias : String) (select groupBy : Option String) :
    ∃ q, Search.query none data (rules.prepare (some g)) defaultAlias select none groupBy =
      .ok q := by
  obtain ⟨hchecked, hn, htext⟩ := checked_search hrules h
  exact query_of_checked hrules hchecked hn htext defaultAlias select groupBy

def personRules : RuleMap :=
  [("name", { spec := {} }), ("age", { spec := { type := some (.known .integer) } })]

theorem searchRules_person : SearchRules personRules := by
  have hmem : ∀ e ∈ personRules, e.1 ≠ "limit" ∧ e.1 ≠ "offset" ∧ e.1 ≠ "orderBy" := by decide
  constructor
  · intro e he _
    simp only [personRules, List.mem_cons, List.not_mem_nil, or_false] at he
    rcases he with rfl | rfl
    · exact ⟨⟨_, rfl⟩, rfl, rfl, rfl, rfl, by simp, fun g hg => by cases hg⟩
    · exact ⟨⟨_, rfl⟩, rfl, rfl, rfl, rfl, by simp, fun g hg => by cases hg⟩
  · intro e he hname
    exact absurd hname (hmem e he).2.2
  · intro e he
    exact (hmem e he).1
  · intro e he
    exact (hmem e he).2.1

def personBags : Bags :=
  [("query", [("name", .str "a%,b"), ("age", .str "1|3,7"), ("orderBy", .str "age|desc,name")])]

theorem person_query :
    ∃ data, validated none personBags (personRules.prepare (some {})) "GET" {} "request." =
        .ok data ∧
      ∃ q, Search.query none data (personRules.prepare (some {})) "t" none none none = .ok q := by
  have hok : (validated none personBags (personRules.prepare (some {})) "GET" {}
      "request.").isOk = true := by decide +kernel
  cases h : validated none personBags (personRules.prepare (some {})) "GET" {} "request." with
  | error e =>
    rw [h] at hok
    cases hok
  | ok data =>
    exact ⟨data, rfl, query_of_validated {} personRules searchRules_person personBags "GET"
      "request." {} data h "t" none none⟩

end Request

end FieldRules
