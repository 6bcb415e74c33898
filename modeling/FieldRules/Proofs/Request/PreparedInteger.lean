import FieldRules.Proofs.Filter.IntegerMeaning
import FieldRules.Proofs.Filter.Buildable
import FieldRules.Proofs.Request.Reordered
import FieldRules.Proofs.Rule.Idempotent
import FieldRules.Proofs.Search.ValidatedCompiles
import FieldRules.Proofs.Validation.Conforming

namespace FieldRules

open Numeral Validation

structure IntegerField (r : Rule) : Prop where
  type : r.spec.type = some (.known .integer)
  unprepared : r.spec.filterType = none
  noEnum : r.spec.hasEnum = false
  noDate : flag r.spec.date = false
  noPattern : r.spec.regex = none
  ungrouped : r.spec.choiceGroup = none
  unchecked : r.custom = none
  noTemplate : Text.nonempty? r.spec.template = none
  noCallback : r.callback = none

structure Sized (r : Rule) (data : Table Value) (size : Int) : Prop where
  demand : ∃ required, Demand r data required
  length : ∀ length, r.spec.length = some length → Between length (.int size)

namespace Filter

variable {limit : DigitLimit} {spec : RuleSpec} {s : String} {n : Int}

theorem ne_empty_of_spells (h : Spells s.toList n) : s ≠ "" := by
  rintro rfl
  exact absurd ((isInt_iff _).mpr ⟨n, h⟩) (by decide)

theorem checkComparable_of_spells (g : Grammar) (hbase : spec.effectiveBase? = some .integer)
    (hdate : flag spec.date = false) (h : Spells s.toList n) {name : String} {data : Table Value}
    (hget : data.get? name = some (.str s)) : g.checkComparable name data spec = .ok () := by
  have hcomma : ',' ∉ s.toList := h.not_mem (by decide)
  have hreader : g.reader spec = .integer := by simp [Grammar.reader, hdate, hbase]
  have hitem : comparableItem spec .integer true s.toList = .ok true :=
    comparableItem_of_spells true h
  unfold Grammar.checkComparable
  rw [informed?_str hget (ne_empty_of_spells h)]
  dsimp only
  rw [hreader, listItems_of_not_mem spec hcomma, List.map_singleton, comparableItems, hitem]
  rfl

theorem fragment_equal (spec : RuleSpec) (column p q : String) (v : Value) :
    (Test.equal false v).fragment spec column p q = .ok ⟨column ++ " = " ++ p, [(p, v)]⟩ := by
  have htext : column ++ " " ++ ("=" ++ " " ++ p) = column ++ " = " ++ p := by
    simp [← String.toList_inj]
  rw [← htext]
  exact fragment_of_rightSide rfl

theorem itemFragments_of_spells (hbase : spec.effectiveBase? = some .integer)
    (hdate : flag spec.date = false) (hwildcard : spec.wildcard = none) (h : Spells s.toList n)
    (column : String) (names : ParamNames) : itemFragments limit spec column [s] names =
      (if fits limit s.toList then
          .ok [⟨column ++ " = " ++ names.name 0, [(names.name 0, .int n)]⟩]
        else .error .tooManyDigits, names.advance 1) := by
  have hmark : s.toList.head? ≠ some '!' := by
    intro hhead
    exact h.not_mem (c := '!') (by decide) (List.mem_of_head? hhead)
  have hfind : Match.find? spec true s.toList = .ok none :=
    find?_of_not_isOperator hwildcard (isOperator_of_spells h) fun _ => hmark
  have hequality : equality limit spec false [s] = (boundText limit spec s).map (.equal false) := by
    rw [equality, negatedItems_of_not_marked spec hmark]
  have hoperators : operatorFragments limit spec column true [s] names = (.ok ([], [s]), names) := by
    simp [operatorFragments, hfind, Except.map]
  have hsingle : ([s].length == 1) = true := rfl
  rw [itemFragments, hsingle, hoperators]
  dsimp only
  rw [equalityFragment, hequality, boundText_of_integer limit hbase hdate h]
  cases fits limit s.toList with
  | true =>
    simp only [if_true, testFragment, drawn, Except.map, Except.bind, fragment_equal]
    rfl
  | false => rfl

end Filter

namespace IntegerField

variable {r : Rule} {g : Filter.Grammar} {field : String} {data : Table Value} {n : Int}

theorem shape (hr : IntegerField r) : r.shape = .scalar := by
  simp [Rule.shape, Rule.shapeOf, RuleSpec.base?, hr.type, DeclaredType.base?,
    BaseType.hasParts]

theorem flagged (hr : IntegerField r) : Filter.Flagged r :=
  ⟨⟨_, hr.type⟩, hr.unprepared, hr.noTemplate, hr.noCallback⟩

theorem prepare_eq (hr : IntegerField r) (g : Filter.Grammar) : r.prepare (some g) =
    { r with spec := r.spec.prepared, custom := some (Filter.GrammarCheck.integer.hook g) } := by
  have hcheck : Filter.chosenCheck (some g) r = some (Filter.GrammarCheck.integer.hook g) := by
    simp [Filter.chosenCheck, hr.unchecked, Filter.checkFor?, hr.noEnum, hr.noDate,
      RuleSpec.base?, hr.type, DeclaredType.base?]
  rw [Rule.prepare_of_unprepared hr.unprepared, hcheck]

theorem type_prepare (hr : IntegerField r) (g : Filter.Grammar) :
    (r.prepare (some g)).spec.type = some (.known .string) := by
  rw [hr.prepare_eq]
  exact RuleSpec.type_prepared hr.type

theorem shape_prepare (hr : IntegerField r) (g : Filter.Grammar) :
    (r.prepare (some g)).shape = .scalar := by
  simp [Rule.shape, Rule.shapeOf, RuleSpec.base?, hr.type_prepare g, DeclaredType.base?,
    BaseType.hasParts]

theorem demand_prepare_iff (hr : IntegerField r) (g : Filter.Grammar) {required : Option Bool} :
    Demand (r.prepare (some g)) data required ↔ Demand r data required := by
  rw [← required?_eq_ok_iff, ← required?_eq_ok_iff, hr.prepare_eq]
  rfl

theorem meets_number_iff (hr : IntegerField r) :
    FieldMeets r field "" [(field, .int n)] ↔ Sized r [(field, .int n)] n := by
  have hnumeric : IsNumeric r := .inl hr.type
  have hget : Table.get? [(field, Value.int n)] field = some (.int n) := if_pos rfl
  rw [fieldMeets_filled_iff hget rfl]
  constructor
  · rintro ⟨hdemand, hmeets⟩
    refine ⟨hdemand, fun length hlength => ?_⟩
    have hwithin := hmeets.length length hlength (.inl hnumeric)
    rwa [isNumeric_iff.mpr hnumeric] at hwithin
  · rintro ⟨hdemand, hlength⟩
    refine ⟨hdemand, ?_, ?_, ?_, ?_, .unchecked hr.unchecked⟩
    · rw [hr.type]
      exact .known (.integer n)
    · rintro (harray | harray) <;> cases hr.shape.symm.trans harray
    · intro length hsome _
      rw [isNumeric_iff.mpr hnumeric]
      exact hlength length hsome
    · intro pattern hpattern
      cases hr.noPattern.symm.trans hpattern

theorem meets_text_iff (hr : IntegerField r) (g : Filter.Grammar) {s : String}
    (hs : Spells s.toList n) : FieldMeets (r.prepare (some g)) field "" [(field, .str s)] ↔
      Sized r [(field, .str s)] s.length := by
  have htype := hr.type_prepare g
  have hlength : (r.prepare (some g)).spec.length = r.spec.length := by
    rw [hr.prepare_eq]
    rfl
  have hmeasure : measure ((r.prepare (some g)).spec.base?.any BaseType.isNumeric) (.str s) =
      .int s.length := by
    rw [RuleSpec.base?, htype]
    rfl
  have hget : Table.get? [(field, Value.str s)] field = some (.str s) := if_pos rfl
  rw [fieldMeets_filled_iff hget (by simp [Value.isEmpty, Filter.ne_empty_of_spells hs])]
  simp only [hr.demand_prepare_iff g]
  constructor
  · rintro ⟨hdemand, hmeets⟩
    refine ⟨hdemand, fun length hsome => ?_⟩
    have hwithin := hmeets.length length (hlength.trans hsome) (.inr (.inl htype))
    rwa [hmeasure] at hwithin
  · rintro ⟨hdemand, hfits⟩
    refine ⟨hdemand, ?_, ?_, ?_, ?_, ?_⟩
    · rw [htype]
      exact .known (.string s)
    · rintro (harray | harray) <;> cases (hr.shape_prepare g).symm.trans harray
    · intro length hsome _
      rw [hmeasure]
      exact hfits length (hlength.symm.trans hsome)
    · intro pattern hpattern
      have hnone : (r.prepare (some g)).spec.regex = none := by
        rw [hr.prepare_eq]
        exact hr.noPattern
      cases hnone.symm.trans hpattern
    · refine .returns (congrArg Rule.custom (hr.prepare_eq g)) ?_
      refine Filter.checkComparable_of_spells g ?_ ?_ hs hget
      · rw [hr.prepare_eq]
        exact RuleSpec.effectiveBase?_prepared hr.type
      · rw [hr.prepare_eq]
        exact hr.noDate

theorem build_text (hr : IntegerField r) (g : Filter.Grammar) {s : String}
    (hs : Spells s.toList n) (limit : DigitLimit) (column : String) (names : ParamNames) :
    Filter.build limit (r.prepare (some g)) column (.str s) names =
      (if fits limit s.toList then
          .ok [⟨column ++ " = " ++ names.name 0, [(names.name 0, .int n)]⟩]
        else .error .tooManyDigits, names.advance 1) := by
  have hbase : r.spec.prepared.effectiveBase? = some .integer :=
    RuleSpec.effectiveBase?_prepared hr.type
  have hplain : r.spec.isPlainString r.spec.type = false := by
    simp [RuleSpec.isPlainString, hr.type, DeclaredType.base?]
  have hboolean : r.spec.base? ≠ some .boolean := by
    simp [RuleSpec.base?, hr.type, DeclaredType.base?]
  have hitems : Filter.items r.spec.prepared (.str s) = .ok [s] := by
    have htexts : Filter.isPlain r.spec.prepared = false := by simp [Filter.isPlain, hbase]
    rw [Filter.items_of_str htexts,
      Filter.listItems_of_not_mem r.spec.prepared (hs.not_mem (by decide))]
  rw [hr.flagged.build_prepare hboolean limit (some g) column hitems (List.cons_ne_nil _ _),
    hr.noEnum, if_neg Bool.false_ne_true]
  exact Filter.itemFragments_of_spells hbase hr.noDate
    (RuleSpec.wildcard_prepared_of_not_plain hplain) hs column names

theorem not_meets_number (hr : IntegerField r) (g : Filter.Grammar)
    (hget : data.get? field = some (.int n)) :
    ¬FieldMeets (r.prepare (some g)) field "" data := by
  refine not_fieldMeets_of_type hget rfl ?_
  rw [hr.type_prepare]
  rintro ⟨⟨⟩⟩

end IntegerField

namespace Request

structure Selects (q : Search.Query) (column : String) (v : Value) : Prop where
  condition : q.whereText? = some (column ++ " = " ++ (ParamNames.ofColumn column).name 0)
  params : q.params = [((ParamNames.ofColumn column).name 0, v)]

def comparison (column : String) (v : Value) : Fragment :=
  ⟨column ++ " = " ++ (ParamNames.ofColumn column).name 0,
    [((ParamNames.ofColumn column).name 0, v)]⟩

section Query

variable {rules : RuleMap} {r : Rule} {g : Filter.Grammar} {field : String} {v : Value} {n : Int}

theorem compileFrom_single (hname : isImplicit field = false) (hv : v.isNull = false)
    (hget : Table.get? rules field = some r) (limit : DigitLimit) (table : String) :
    Filter.compileFrom limit rules table [(field, v)] [] =
      if flag r.spec.ignoreFilter then .ok []
      else (Filter.build limit r (Filter.columnOf field r.spec table) v
        (ParamNames.ofColumn (Filter.columnOf field r.spec table))).1.map fun fragments =>
          if fragments.isEmpty then [] else [(field, fragments)] := by
  have hrule : Filter.filterRule? rules field v =
      if flag r.spec.ignoreFilter then none else some r := by
    rw [Filter.filterRule?, hname, hv, hget]
    cases hignore : flag r.spec.ignoreFilter <;> simp [Option.filter, hignore]
  simp only [Filter.compileFrom, hrule]
  cases flag r.spec.ignoreFilter with
  | true => rfl
  | false =>
    simp only [Bool.false_eq_true, if_false, Table.get?, Option.getD_none]
    cases Filter.build limit r (Filter.columnOf field r.spec table) v
        (ParamNames.ofColumn (Filter.columnOf field r.spec table)) with
    | mk result names =>
      cases result with
      | error e => rfl
      | ok fragments => cases fragments <;> rfl

theorem compile_number (hr : IntegerField r) (hname : isImplicit field = false)
    (hget : Table.get? rules field = some (r.prepare (some g))) {s : String} (hs : Spells s.toList n)
    (limit : DigitLimit) (table : String) :
    Filter.compile limit [(field, .str s)] rules table =
      if flag r.spec.ignoreFilter then .ok ⟨[]⟩
      else if fits limit s.toList then
        .ok ⟨[(field, [comparison (Filter.columnOf field r.spec table) (.int n)])]⟩
      else .error .tooManyDigits := by
  have hspec : (r.prepare (some g)).spec = r.spec.prepared := by rw [hr.prepare_eq]
  have hcolumn : Filter.columnOf field r.spec.prepared table = Filter.columnOf field r.spec table :=
    rfl
  have hignore : flag r.spec.prepared.ignoreFilter = flag r.spec.ignoreFilter := rfl
  rw [Filter.compile, compileFrom_single hname rfl hget, hspec, hcolumn, hignore,
    hr.build_text g hs]
  cases flag r.spec.ignoreFilter with
  | true => rfl
  | false => cases fits limit s.toList <;> rfl

theorem compose_single (field : String) (f : Fragment) :
    (Search.conditionTree ⟨[(field, [f])]⟩ none).compose =
      .ok (some ⟨.and, [.fragment f]⟩) := by
  have hname : Tree.connective? (toString 0) = none := by decide
  have hentries : Search.conditionTree ⟨[(field, [f])]⟩ none =
      .map [(toString 0, .fragment f)] := rfl
  rw [hentries, Tree.compose, Tree.parts, Tree.namedParts, hname]
  rfl

theorem get?_single_of_isImplicit (hname : isImplicit field = false) {other : String}
    (hother : isImplicit other = true) : Table.get? [(field, v)] other = none := by
  refine if_neg ?_
  rintro rfl
  cases hname.symm.trans hother

theorem query_number_iff (hr : IntegerField r) (hname : isImplicit field = false)
    (hget : Table.get? rules field = some (r.prepare (some g))) {s : String} (hs : Spells s.toList n)
    (limit : DigitLimit) (table : String) (select : Option String) :
    (∃ q, Search.query limit [(field, .str s)] rules table select none none = .ok q ∧
        Selects q (Filter.columnOf field r.spec table) (.int n)) ↔
      flag r.spec.ignoreFilter = false ∧ fits limit s.toList = true := by
  have horder : Search.orderBy
      ((Table.get? [(field, Value.str s)] "orderBy").getD .null) rules table = .ok [] := by
    rw [get?_single_of_isImplicit hname rfl]
    rfl
  have hcompile := compile_number hr hname hget hs limit table
  cases hignore : flag r.spec.ignoreFilter with
  | true =>
    rw [hignore, if_pos rfl] at hcompile
    have hnone : (Search.conditionTree {} none).compose = .ok none := rfl
    obtain ⟨q, hq, hcondition, -⟩ := Search.query_of_parts hcompile hnone horder select none
    refine iff_of_false ?_ (by simp)
    rintro ⟨q', hq', hselects⟩
    cases hq.symm.trans hq'
    have hwhere := hselects.condition
    rw [Search.Query.whereText?, hcondition] at hwhere
    cases hwhere
  | false =>
    rw [hignore, if_neg Bool.false_ne_true] at hcompile
    cases hfits : fits limit s.toList with
    | false =>
      rw [hfits, if_neg Bool.false_ne_true] at hcompile
      refine iff_of_false ?_ (by simp)
      rintro ⟨q, hq, -⟩
      rw [Search.query, hcompile] at hq
      cases hq
    | true =>
      rw [hfits, if_pos rfl] at hcompile
      refine iff_of_true ?_ ⟨rfl, rfl⟩
      obtain ⟨q, hq, hcondition, hparams⟩ :=
        Search.query_of_parts hcompile (compose_single _ _) horder select none
      refine ⟨q, hq, ?_, ?_⟩
      · rw [Search.Query.whereText?, hcondition]
        rfl
      · rw [hparams]
        simp [Filter.Compiled.params, Fragment.allParams, Composite.params, Part.bindAll,
          Part.bind, comparison, Table.merge, Table.put]

end Query

section Request

variable {r : Rule} {g : Filter.Grammar} {field s source : String} {data : Table Value} {n : Int}

theorem sent?_sending (sentTo source field other : String) (v : Value) (spec : RuleSpec) :
    sent? (sending sentTo field v) source other spec =
      if sentTo = sourceOf spec source ∧ field = other then some v else spec.default := by
  unfold sent? bag sending
  by_cases hsource : sentTo = sourceOf spec source
  · by_cases hfield : field = other <;> simp [Table.get?, hsource, hfield]
  · simp [Table.get?, hsource]

theorem prepare_single (g : Filter.Grammar) (r : Rule) (hname : isImplicit field = false) :
    ∃ names, RuleMap.prepare (some g) [(field, r)] =
      [("limit", Rule.counting "limit"), ("offset", Rule.counting "offset"),
        (field, r.prepare (some g)), ("orderBy", Rule.sorting.withColumns (some g) names)] :=
  RuleMap.prepare_eq_append (by simp [Table.names]) (by simp [hname])

theorem get?_prepare_single (g : Filter.Grammar) (r : Rule) (hname : isImplicit field = false) :
    Table.get? (RuleMap.prepare (some g) [(field, r)]) field = some (r.prepare (some g)) :=
  RuleMap.get?_prepare_of_mem (by simp [Table.names]) List.mem_cons_self hname

theorem extract_sending (hr : IntegerField r) (g : Filter.Grammar)
    (hname : isImplicit field = false) (hs : s ≠ "") (limit : DigitLimit) (source : String) :
    extract limit (sending (sourceOf r.spec source) field (.str s))
      (RuleMap.prepare (some g) [(field, r)]) source = .ok [(field, .str s)] := by
  obtain ⟨names, hprepare⟩ := prepare_single g r hname
  have hother : ∀ other, isImplicit other = true → field ≠ other := by
    rintro other hother rfl
    cases hname.symm.trans hother
  have hsource := sourceOf_congr (source_prepare (some g) r) source
  have hcoerce : coerce limit (r.prepare (some g)).spec (withoutEmptyText (.str s)) =
      .ok (.str s) := by
    rw [withoutEmptyText_of_not_isEmpty (isEmpty_str_eq_false_iff.mpr hs)]
    exact coerce_of_string (by rw [RuleSpec.base?, hr.type_prepare]; rfl) _
  rw [hprepare]
  simp only [extract, List.isEmpty_cons, List.map_cons, List.map_nil, extractFrom, sent?_sending,
    hother "limit" rfl, hother "offset" rfl, hother "orderBy" rfl, and_false, if_false, hsource,
    and_self, if_true, hcoerce]
  rfl

theorem clean_prepared_iff (hr : IntegerField r) (g : Filter.Grammar)
    (hname : isImplicit field = false) {setting : Setting} :
    ofStruct setting (RuleMap.prepare (some g) [(field, r)]) data "" = ([], none) ↔
      ∀ e ∈ RuleMap.prepare (some g) [(field, r)], FieldMeets e.2 e.1 "" data := by
  obtain ⟨names, hprepare⟩ := prepare_single g r hname
  have hplain : ∀ e ∈ RuleMap.prepare (some g) [(field, r)],
      e.2.spec.choiceGroup = none ∧ e.2.shape = .scalar := by
    have hgroup : (r.prepare (some g)).spec.choiceGroup = none := by
      rw [hr.prepare_eq]
      exact hr.ungrouped
    rw [hprepare]
    simp only [List.forall_mem_cons]
    exact ⟨⟨rfl, rfl⟩, ⟨rfl, rfl⟩, ⟨hgroup, hr.shape_prepare g⟩, ⟨rfl, rfl⟩, nofun⟩
  rw [ofStruct_clean_iff_of_ungrouped fun e he => (hplain e he).1]
  exact forall₂_congr fun e he => ofField_eq_nil_iff_of_scalar (hplain e he).2

theorem meets_prepared_iff (g : Filter.Grammar) (r : Rule) (hname : isImplicit field = false)
    {v : Value} : (∀ e ∈ RuleMap.prepare (some g) [(field, r)],
        FieldMeets e.2 e.1 "" [(field, v)]) ↔
      FieldMeets (r.prepare (some g)) field "" [(field, v)] := by
  obtain ⟨names, hprepare⟩ := prepare_single g r hname
  have habsent : ∀ (s : Rule) (other : String), Undemanding s → s.spec.requireFilled = none →
      isImplicit other = true → FieldMeets s other "" [(field, v)] := by
    intro s other hs hfilled hother
    rw [hs.fieldMeets_iff_of_optional hfilled, get?_single_of_isImplicit hname hother]
    nofun
  rw [hprepare]
  simp only [List.forall_mem_cons]
  constructor
  · rintro ⟨-, -, hmeets, -⟩
    exact hmeets
  · intro hmeets
    exact ⟨habsent _ _ ⟨rfl, rfl, rfl⟩ rfl rfl, habsent _ _ ⟨rfl, rfl, rfl⟩ rfl rfl, hmeets,
      habsent _ _ ⟨rfl, rfl, rfl⟩ rfl rfl, nofun⟩

theorem validated_number_iff (hr : IntegerField r) (g : Filter.Grammar)
    (hname : isImplicit field = false) (hs : Spells s.toList n) (limit : DigitLimit)
    (method : String) (ctx : Context) :
    validated limit (sending (sourceOf r.spec (defaultSource method)) field (.str s))
        (RuleMap.prepare (some g) [(field, r)]) method ctx g.codes = .ok data ↔
      data = [(field, .str s)] ∧ Sized r [(field, .str s)] s.length := by
  have hget := get?_prepare_single g r hname
  have hsource := sourceOf_congr (source_prepare (some g) r) (defaultSource method)
  have hbase : (r.prepare (some g)).spec.base? = some .string := by
    rw [RuleSpec.base?, hr.type_prepare]
    rfl
  have hstrays := strays_sending hget hbase (defaultSource method) (.str s)
  rw [hsource] at hstrays
  rw [validated_eq_ok_iff, extract_sending hr g hname (Filter.ne_empty_of_spells hs),
    iff_true_intro hstrays, true_and, clean_prepared_iff hr g hname]
  constructor
  · rintro ⟨hdata, hmeets⟩
    cases hdata
    exact ⟨rfl, (hr.meets_text_iff g hs).mp ((meets_prepared_iff g r hname).mp hmeets)⟩
  · rintro ⟨rfl, hsized⟩
    exact ⟨rfl, (meets_prepared_iff g r hname).mpr ((hr.meets_text_iff g hs).mpr hsized)⟩

theorem not_validated_of_default (hr : IntegerField r) (g : Filter.Grammar)
    (hname : isImplicit field = false) (hdefault : r.spec.default = some (.int n))
    {bags : Bags} {method : String}
    (habsent : (bag bags (sourceOf r.spec (defaultSource method))).get? field = none)
    (limit : DigitLimit) (ctx : Context) (data : Table Value) :
    validated limit bags (RuleMap.prepare (some g) [(field, r)]) method ctx g.codes ≠ .ok data := by
  intro h
  obtain ⟨hdata, -, hclean⟩ := validated_eq_ok_iff.mp h
  have hget := get?_prepare_single g r hname
  have hmem := Table.mem_of_get?_eq_some hget
  have hbase : (r.prepare (some g)).spec.base? = some .string := by
    rw [RuleSpec.base?, hr.type_prepare]
    rfl
  have hsent : sent? bags (defaultSource method) field (r.prepare (some g)).spec =
      some (.int n) := by
    have hsource := sourceOf_congr (source_prepare (some g) r) (defaultSource method)
    rw [sent?, hsource, habsent, hr.prepare_eq]
    exact hdefault
  have hnames := nodup_specs (RuleMap.nodup_names_prepare (some g) [(field, r)])
  have hfield : data.get? field = some (.int n) := by
    rw [get?_of_string hnames (extractFrom_of_extract hdata) (List.mem_map_of_mem hmem) hbase, hsent]
    rfl
  exact hr.not_meets_number g hfield ((clean_prepared_iff hr g hname).mp hclean _ hmem)

end Request

namespace Handler

theorem handle_eq_ok_iff {h : Handler} {limit : DigitLimit} {bags : Bags} {method : String}
    {ctx : Context} {extra : Option Tree} {q : Search.Query} :
    h.handle limit bags method ctx extra = .ok q ↔
      ∃ data, validated limit bags h.rules method ctx h.config.requestCodes = .ok data ∧
        Search.query limit data h.rules h.table h.select extra none = .ok q := by
  unfold handle
  cases validated limit bags h.rules method ctx h.config.requestCodes with
  | error e => simp
  | ok data => simp

/-- A declared rule accepts the numbers within its length; the handler accepts the texts of numbers
    whose own length is within it, and never an integer as the default. -/
theorem integer_accepted_iff (r : Rule) (hr : IntegerField r) (field : String)
    (hname : isImplicit field = false) (n : Int) (validator : Validator) (limit : DigitLimit)
    (table select : Option String) (config : Config) (method : String) (ctx : Context) :
    ((validator.validate (.map [(field, .int n)]) (some [(field, r)]) "").1 = .ok [] ↔
      Sized r [(field, .int n)] n) ∧
    ((∃ q, (make [(field, r)] table select config).handle limit
          (sending (sourceOf r.spec (defaultSource method)) field (.str (toString n))) method ctx
          none = .ok q ∧
        Selects q (Filter.columnOf field r.spec (make [(field, r)] table select config).table)
          (.int n)) ↔
      Sized r [(field, .str (toString n))] (toString n).length ∧
        flag r.spec.ignoreFilter = false ∧ fits limit (toString n).toList = true) ∧
    (r.spec.default = some (.int n) → ∀ bags : Bags,
      (bag bags (sourceOf r.spec (defaultSource method))).get? field = none →
        ∀ q, (make [(field, r)] table select config).handle limit bags method ctx none ≠ .ok q) := by
  have hspells := Filter.spells_toString n
  let g : Filter.Grammar := ⟨config.requestCodes, config.defaultDateFormat⟩
  refine ⟨?_, ?_, ?_⟩
  · rw [Validator.validate_eq_nil_iff,
      ofStruct_clean_iff_of_ungrouped (List.forall_mem_singleton.mpr hr.ungrouped),
      List.forall_mem_singleton, ofField_eq_nil_iff_of_scalar hr.shape]
    exact hr.meets_number_iff
  · simp only [handle_eq_ok_iff, make]
    have hquery := query_number_iff hr hname (get?_prepare_single g r hname) hspells limit
      ((Text.nonempty? table).getD config.defaultAlias) select
    rw [← hquery]
    constructor
    · rintro ⟨q, ⟨data, hdata, hq⟩, hselects⟩
      obtain ⟨rfl, hsized⟩ := (validated_number_iff hr g hname hspells limit method ctx).mp hdata
      exact ⟨hsized, q, hq, hselects⟩
    · rintro ⟨hsized, q, hq, hselects⟩
      have hdata := (validated_number_iff hr g hname hspells limit method ctx).mpr ⟨rfl, hsized⟩
      exact ⟨q, ⟨_, hdata, hq⟩, hselects⟩
  · intro hdefault bags habsent q hq
    obtain ⟨data, hdata, -⟩ := handle_eq_ok_iff.mp hq
    exact not_validated_of_default hr g hname hdefault habsent limit ctx data hdata

def shortSize : Rule :=
  { spec := { type := some (.known .integer)
              length := some (.tuple [.int 1, .int 500])
              default := some (.int 42) } }

theorem short_size_accepted :
    (({} : Validator).validate (.map [("size", .int 42)]) (some [("size", shortSize)]) "").1 =
        .ok [] ∧
      (∃ q, (make [("size", shortSize)] none none {}).handle digitLimit
          (sending "query" "size" (.str (toString (42 : Int)))) "GET" {} none = .ok q ∧
        Selects q "t.size" (.int 42)) ∧
      ∀ q, (make [("size", shortSize)] none none {}).handle digitLimit [] "GET" {} none ≠ .ok q := by
  have hfield : IntegerField shortSize := ⟨rfl, rfl, rfl, rfl, rfl, rfl, rfl, rfl, rfl⟩
  have hsized : ∀ data size, 1 ≤ size → size ≤ 500 → Sized shortSize data size := by
    intro data size hlow hhigh
    refine ⟨⟨_, .declared rfl⟩, fun length hlength => ?_⟩
    cases hlength
    exact between_ints_iff.mpr ⟨hlow, hhigh⟩
  obtain ⟨hdeclared, hsent, homitted⟩ := integer_accepted_iff shortSize hfield "size" rfl 42 {}
    digitLimit none none {} "GET" {}
  refine ⟨hdeclared.mpr (hsized _ _ (by decide) (by decide)), ?_, homitted rfl [] rfl⟩
  exact hsent.mpr ⟨hsized _ _ (by decide +kernel) (by decide +kernel), rfl, by decide +kernel⟩

def wideSize : Rule :=
  { spec := { type := some (.known .integer)
              length := some (.tuple [.int 100, .int 500])
              default := some (.int 250) } }

def rejectsFields {α : Type} : Except Fault α → Bool
  | .error (.rejected (.invalidFields _)) => true
  | .error _ => false
  | .ok _ => false

theorem rejectsFields_iff {α : Type} {outcome : Except Fault α} :
    rejectsFields outcome = true ↔
      ∃ details, outcome = .error (.rejected (.invalidFields details)) := by
  constructor
  · intro h
    unfold rejectsFields at h
    split at h
    next details => exact ⟨details, rfl⟩
    next => cases h
    next => cases h
  · rintro ⟨details, rfl⟩
    rfl

theorem wide_size_rejected : IntegerField wideSize ∧
    (({} : Validator).validate (.map [("size", .int 250)]) (some [("size", wideSize)]) "").1 =
      .ok [] ∧
    ∀ bags ∈ [sending "query" "size" (.str "250"), []], ∃ details,
      (make [("size", wideSize)] none none {}).handle digitLimit bags "GET" {} none =
        .error (.rejected (.invalidFields details)) := by
  have hrejected : ∀ bags ∈ [sending "query" "size" (.str "250"), []],
      rejectsFields ((make [("size", wideSize)] none none {}).handle digitLimit bags "GET" {}
        none) = true := by
    decide +kernel
  refine ⟨⟨rfl, rfl, rfl, rfl, rfl, rfl, rfl, rfl, rfl⟩, ?_, ?_⟩
  · rw [Validator.validate_eq_nil_iff]
    rfl
  · intro bags hbags
    exact rejectsFields_iff.mp (hrejected bags hbags)

end Handler

end Request

end FieldRules
