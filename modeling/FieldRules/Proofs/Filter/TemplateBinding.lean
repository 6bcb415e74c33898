import FieldRules.Proofs.Filter.Buildable
import FieldRules.Proofs.Filter.DigitLimit
import FieldRules.Proofs.Filter.IntegerMeaning
import FieldRules.Proofs.Rule.Prepared

namespace FieldRules.Filter

open Numeral

structure TemplatedInteger (r : Rule) (template : String) : Prop where
  type : r.spec.type = some (.known .integer)
  unprepared : r.spec.filterType = none
  noDate : flag r.spec.date = false
  noCallback : r.callback = none
  given : Text.nonempty? r.spec.template = some template
  place : Text.mentions template "{OPERATION_VALUE}" = true ∨
    Text.mentions template "{VALUE}" = true

structure BindsIntegers (template p : String) (items : List (List Char)) (f : Fragment) :
    Prop where
  integers : ∀ e ∈ f.params, BoundIntegers e.2
  negated : Text.mentions template "{OPERATION_VALUE}" = true → isMarked items = true →
    items.length ≠ 1 →
      f.expression = Text.replaced template "{OPERATION_VALUE}" ("NOT IN (" ++ p ++ ")")

def FitsTemplate (template : String) (items : List (List Char)) : Prop :=
  (Text.mentions template "{OPERATION_VALUE}" = true ∧ items.length = 1) ∨
    ∀ cs ∈ items, ∃ n, Spells cs n

def unranged (spec : RuleSpec) : RuleSpec := { spec with avoidBetween := none }

variable {spec : RuleSpec} {template column p q : String} {items : List (List Char)}

theorem comparableItems_unranged (spec : RuleSpec) (reader : Reader) (first : Bool)
    (items : List (List Char)) :
    comparableItems (unranged spec) reader first items =
      comparableItems spec reader first items := by
  induction items generalizing first with
  | nil => rfl
  | cons cs items ih =>
    have hitem : comparableItem (unranged spec) reader first cs =
        comparableItem spec reader first cs := rfl
    rw [comparableItems, comparableItems, hitem, ih]

theorem run_unranged (g : Grammar) (field : String) (data : Table Value) (spec : RuleSpec) :
    GrammarCheck.integer.run g field data (unranged spec) =
      GrammarCheck.integer.run g field data spec := by
  simp only [GrammarCheck.run, Grammar.checkComparable, comparableItems_unranged]
  rfl

theorem integers_cons_iff {v : Value} {vs : List Value} :
    (∃ ns : List Int, v :: vs = ns.map .int) ↔
      (∃ n, v = .int n) ∧ ∃ ns : List Int, vs = ns.map .int := by
  constructor
  · rintro ⟨ns, hns⟩
    cases ns with
    | nil => cases hns
    | cons n ns =>
      obtain ⟨hhead, htail⟩ := List.cons.inj hns
      exact ⟨⟨n, hhead⟩, ns, htail⟩
  · rintro ⟨⟨n, rfl⟩, ns, rfl⟩
    exact ⟨n :: ns, rfl⟩

section Reading

variable (hs : ReadsIntegers (unranged spec))

include hs

theorem boundText_cases {cs : List Char} {v : Value}
    (hv : boundText none spec (String.ofList cs) = .ok v) :
    (∃ n, v = .int n ∧ Spells cs n) ∨ v = .str (String.ofList cs) ∧ ∀ n, ¬Spells cs n := by
  have hbase : spec.effectiveBase? = some .integer := hs.base
  have hdate : flag spec.date = false := hs.noDate
  simp only [boundText, hdate, hbase, String.toList_ofList, Bool.false_eq_true, if_false] at hv
  split at hv
  next hint =>
    obtain ⟨n, hn, rfl⟩ := Outcome.map_eq_ok.mp hv
    obtain rfl : intOf cs = n := Except.ok.inj hn
    exact .inl ⟨intOf cs, rfl, spells_intOf hint⟩
  next hint =>
    obtain rfl := Except.ok.inj hv
    exact .inr ⟨rfl, fun n hn => hint ((isInt_iff cs).mpr ⟨n, hn⟩)⟩

theorem boundInteger_iff {cs : List Char} {v : Value}
    (hv : boundText none spec (String.ofList cs) = .ok v) :
    BoundIntegers v ↔ ∃ n, Spells cs n := by
  rcases boundText_cases hs hv with ⟨n, rfl, hn⟩ | ⟨rfl, hnot⟩
  · exact iff_of_true (.inl ⟨n, rfl⟩) ⟨n, hn⟩
  · refine iff_of_false ?_ (not_exists.mpr hnot)
    rintro (⟨n, hn⟩ | ⟨ns, hns⟩)
    · cases hn
    · cases hns

theorem boundAll_integers_iff {items : List (List Char)} {vs : List Value}
    (hvs : boundAll none spec (items.map String.ofList) = .ok vs) :
    (∃ ns : List Int, vs = ns.map .int) ↔ ∀ cs ∈ items, ∃ n, Spells cs n := by
  induction items generalizing vs with
  | nil =>
    obtain rfl : [] = vs := Except.ok.inj hvs
    exact iff_of_true ⟨[], rfl⟩ (by simp)
  | cons cs items ih =>
    obtain ⟨v, hv⟩ := boundText_total spec (String.ofList cs)
    obtain ⟨vs', hvs'⟩ := boundAll_total spec (items.map String.ofList)
    obtain rfl : v :: vs' = vs := by
      simpa [boundAll, hv, hvs', Except.map] using hvs
    have hhead : (∃ n, v = .int n) ↔ ∃ n, Spells cs n := by
      rcases boundText_cases hs hv with ⟨n, rfl, hn⟩ | ⟨rfl, hnot⟩
      · exact iff_of_true ⟨n, rfl⟩ ⟨n, hn⟩
      · exact iff_of_false (by simp) (not_exists.mpr hnot)
    rw [integers_cons_iff, List.forall_mem_cons]
    exact and_congr hhead (ih hvs')

theorem boundIntegers_iff {items : List (List Char)} {vs : List Value}
    (hvs : boundAll none spec (items.map String.ofList) = .ok vs) :
    BoundIntegers (.list vs) ↔ ∀ cs ∈ items, ∃ n, Spells cs n := by
  rw [← boundAll_integers_iff hs hvs]
  simp [BoundIntegers]

theorem templateOperation_single {cs : List Char} (h : Accepted (unranged spec) true cs)
    (template column : String) (names : ParamNames) :
    ∃ (t : Test) (k : Nat), t.Integral ∧
      templateOperation none spec template column [String.ofList cs] names =
        drawn names k fun p q => t.inTemplate spec template column p q := by
  by_cases hop : isOperator cs = true
  · obtain ⟨m, t, hfind, htest, hint, -⟩ := find?_of_isOperator hs h hop true
    have hfind : Match.find? spec true cs = .ok (some m) := hfind
    have htest : m.test none spec = .ok t := htest
    refine ⟨t, m.draws, hint, ?_⟩
    simp only [templateOperation, String.toList_ofList, hfind, htest]
    rfl
  · have hop : isOperator cs = false := by simpa using hop
    by_cases hmark : cs.head? = some '!'
    · obtain ⟨rest, rfl⟩ := List.head?_eq_some_iff.mp hmark
      obtain ⟨-, hneg, n, hn⟩ := h.of_marked
      have hfind : Match.find? spec true ('!' :: rest) = .ok (some (.negation rest)) :=
        find?_of_marked hneg hn
      have hbound : boundText none spec (String.ofList rest) = .ok (.int n) :=
        boundText_of_spells hs hn
      refine ⟨.equal true (.int n), 1, .equal true n, ?_⟩
      simp only [templateOperation, String.toList_ofList, hfind, Match.test, hbound]
      rfl
    · have hfind : Match.find? spec true cs = .ok none :=
        find?_of_not_isOperator hs.noWildcard hop fun _ => hmark
      obtain ⟨n, hn⟩ := h.spells hop hmark
      have hbound : boundText none spec (String.ofList cs) = .ok (.int n) :=
        boundText_of_spells hs hn
      have hplain : negatedItems spec [String.ofList cs] = (false, [String.ofList cs]) :=
        negatedItems_of_not_marked spec (by simpa using hmark) []
      refine ⟨.equal false (.int n), 1, .equal false n, ?_⟩
      simp only [templateOperation, String.toList_ofList, hfind, equality, hplain, hbound]
      rfl

end Reading

theorem operation_cases (spec : RuleSpec) (column p q : String) (t : Test) :
    (∃ op, t.operation spec column p q = .ok op) ∨
      t.operation spec column p q = .error .outOfRange ∧
        ∃ v, spec.avoidBetween = some (.tuple [v]) := by
  by_cases hsingle : ∃ v, spec.avoidBetween = some (.tuple [v])
  · obtain ⟨v, hv⟩ := hsingle
    cases t with
    | between low high =>
      refine .inr ⟨?_, v, hv⟩
      unfold Test.operation
      rw [hv]
      rfl
    | _ => exact .inl ⟨_, rfl⟩
  · have hs : Operable { spec with wildcard := none } :=
      ⟨⟨_, rfl⟩, fun v hv => hsingle ⟨v, hv⟩⟩
    exact .inl (hs.operation column p q t)

theorem not_spells_of_isMarked (h : isMarked items = true) : ¬∀ cs ∈ items, ∃ n, Spells cs n := by
  unfold isMarked at h
  split at h
  next cs rest =>
    intro hall
    obtain ⟨n, hn⟩ := hall _ List.mem_cons_self
    exact hn.not_mem (c := '!') (by decide) List.mem_cons_self
  next => cases h

theorem bindsIntegers_iff_of_whole {f : Fragment}
    (hbound : (∀ e ∈ f.params, BoundIntegers e.2) ↔ ∀ cs ∈ items, ∃ n, Spells cs n)
    (hfew : Text.mentions template "{OPERATION_VALUE}" = true → items.length ≠ 1) :
    BindsIntegers template p items f ↔ FitsTemplate template items := by
  constructor
  · intro h
    exact .inr (hbound.mp h.integers)
  · rintro (⟨hplace, hone⟩ | hspells)
    · exact absurd hone (hfew hplace)
    · exact ⟨hbound.mpr hspells, fun _ hmark => absurd hspells (not_spells_of_isMarked hmark)⟩

theorem templateOperation_of_list {limit : DigitLimit} {texts : List String}
    (hlist : texts.length ≠ 1) (template column : String) (names : ParamNames) :
    templateOperation limit spec template column texts names =
      drawn names 1 fun p q => ((boundAll limit spec texts).map (Test.among false)).bind
        (Test.inTemplate spec template column p q) := by
  unfold templateOperation
  split
  next => exact absurd rfl hlist
  next => rfl

theorem templateValue_of_single {limit : DigitLimit} {s : String} {v : Value}
    (hv : boundText limit spec s = .ok v) (template name : String) :
    templateValue limit spec template name [s] =
      .ok ⟨Text.replaced template "{VALUE}" name, [(name, v)]⟩ := by
  simp [templateValue, boundAll, hv, Except.map]

theorem templateValue_of_list {limit : DigitLimit} {texts : List String} {vs : List Value}
    (hvs : boundAll limit spec texts = .ok vs) (hlist : texts.length ≠ 1)
    (template name : String) :
    templateValue limit spec template name texts =
      .ok ⟨Text.replaced template "{VALUE}" name, [(name, .list vs)]⟩ := by
  rw [templateValue, hvs]
  refine congrArg Except.ok ?_
  dsimp only
  split
  next v => exact absurd (length_of_boundAll hvs).symm hlist
  next => rfl

section Fragments

variable (hs : ReadsIntegers (unranged spec))

include hs

theorem templateFragments_single {cs : List Char} (h : Accepted (unranged spec) true cs)
    (hplace : Text.mentions template "{OPERATION_VALUE}" = true) (column : String)
    (names : ParamNames) :
    (templateFragments none spec template column [String.ofList cs] names).1 =
        .error .outOfRange ∧ (∃ v, spec.avoidBetween = some (.tuple [v])) ∨
      ∃ f, (templateFragments none spec template column [String.ofList cs] names).1 = .ok [f] ∧
        (BindsIntegers template (names.name 0) [cs] f ↔ FitsTemplate template [cs]) := by
  obtain ⟨t, k, hint, hmade⟩ := templateOperation_single hs h template column names
  have hbuilt : (templateFragments none spec template column [String.ofList cs] names).1 =
      (t.inTemplate spec template column (names.name 0) (names.name 1)).map ([·]) := by
    rw [templateFragments, if_pos hplace, hmade]
    rfl
  rw [hbuilt]
  rcases operation_cases spec column (names.name 0) (names.name 1) t with
    ⟨op, hop⟩ | ⟨hfault, hsingle⟩
  · obtain ⟨f, hf⟩ : ∃ f, t.inTemplate spec template column (names.name 0) (names.name 1) =
        .ok f := by
      rw [Test.inTemplate, hop]
      exact ⟨_, rfl⟩
    refine .inr ⟨f, by rw [hf]; rfl, iff_of_true ⟨?_, fun _ _ hlen => absurd rfl hlen⟩ ?_⟩
    · rw [Test.params_of_inTemplate hf]
      exact hint.bound _ _
    · exact .inl ⟨hplace, rfl⟩
  · refine .inl ⟨?_, hsingle⟩
    rw [Test.inTemplate, hfault]
    rfl

theorem templateFragments_list (hplace : Text.mentions template "{OPERATION_VALUE}" = true)
    (hlist : items.length ≠ 1) (column : String) (names : ParamNames) :
    ∃ f, (templateFragments none spec template column (items.map String.ofList) names).1 =
          .ok [f] ∧
        (BindsIntegers template (names.name 0) items f ↔ FitsTemplate template items) := by
  have htexts : (items.map String.ofList).length ≠ 1 := by rwa [List.length_map]
  obtain ⟨vs, hvs⟩ := boundAll_total spec (items.map String.ofList)
  refine ⟨⟨Text.replaced template "{OPERATION_VALUE}" ("IN (" ++ names.name 0 ++ ")"),
    [(names.name 0, .list vs)]⟩, ?_, bindsIntegers_iff_of_whole ?_ fun _ => hlist⟩
  · rw [templateFragments, if_pos hplace, templateOperation_of_list htexts, hvs]
    rfl
  · rw [List.forall_mem_singleton]
    exact boundIntegers_iff hs hvs

theorem templateFragments_value (hplace : Text.mentions template "{OPERATION_VALUE}" = false)
    (hvalue : Text.mentions template "{VALUE}" = true) (column : String) (names : ParamNames) :
    ∃ f, (templateFragments none spec template column (items.map String.ofList) names).1 =
          .ok [f] ∧
        (BindsIntegers template (names.name 0) items f ↔ FitsTemplate template items) := by
  have hbuilt {f : Fragment}
      (hf : templateValue none spec template (names.name 0) (items.map String.ofList) = .ok f) :
      (templateFragments none spec template column (items.map String.ofList) names).1 =
        .ok [f] := by
    rw [templateFragments, hplace, if_neg Bool.false_ne_true, if_pos hvalue]
    exact congrArg (Except.map ([·])) hf
  have hnever {P : Prop} (h : Text.mentions template "{OPERATION_VALUE}" = true) : P := by
    rw [hplace] at h
    cases h
  by_cases hone : ∃ cs, items = [cs]
  · obtain ⟨cs, rfl⟩ := hone
    obtain ⟨v, hv⟩ := boundText_total spec (String.ofList cs)
    refine ⟨_, hbuilt (templateValue_of_single hv _ _), bindsIntegers_iff_of_whole ?_ hnever⟩
    rw [List.forall_mem_singleton, List.forall_mem_singleton]
    exact boundInteger_iff hs hv
  · have hlist : (items.map String.ofList).length ≠ 1 := by
      rw [List.length_map]
      exact fun hlen => hone (List.length_eq_one_iff.mp hlen)
    obtain ⟨vs, hvs⟩ := boundAll_total spec (items.map String.ofList)
    refine ⟨_, hbuilt (templateValue_of_list hvs hlist _ _), bindsIntegers_iff_of_whole ?_ hnever⟩
    rw [List.forall_mem_singleton]
    exact boundIntegers_iff hs hvs

end Fragments

theorem build_template {r : Rule} {texts : List String} {v : Value}
    (hbase : r.spec.effectiveBase? = some .integer) (hcallback : r.callback = none)
    (htemplate : Text.nonempty? r.spec.template = some template)
    (hitems : Filter.items r.spec v = .ok texts) (hne : texts ≠ []) (limit : DigitLimit)
    (column : String) (names : ParamNames) :
    build limit r column v names =
      templateFragments limit r.spec template column texts names := by
  have hliteral : isLiteral r = false := by simp [isLiteral, hbase]
  obtain ⟨s, rest, rfl⟩ := List.exists_cons_of_ne_nil hne
  rw [build, hliteral, if_neg Bool.false_ne_true, hitems]
  simp only [ruleFragments, hcallback, htemplate]

theorem templateFragments_cases (hs : ReadsIntegers (unranged spec)) (hne : items ≠ [])
    (hok : comparableItems (unranged spec) .integer true items = .ok true)
    (hplace : Text.mentions template "{OPERATION_VALUE}" = true ∨
      Text.mentions template "{VALUE}" = true) (column : String) (names : ParamNames) :
    (templateFragments none spec template column (items.map String.ofList) names).1 =
        .error .outOfRange ∧ (∃ v, spec.avoidBetween = some (.tuple [v])) ∨
      ∃ f, (templateFragments none spec template column (items.map String.ofList) names).1 =
          .ok [f] ∧
        (BindsIntegers template (names.name 0) items f ↔ FitsTemplate template items) := by
  cases hoperation : Text.mentions template "{OPERATION_VALUE}" with
  | false =>
    have hvalue : Text.mentions template "{VALUE}" = true :=
      hplace.resolve_left (by simp [hoperation])
    exact .inr (templateFragments_value hs hoperation hvalue column names)
  | true =>
    by_cases hone : items.length = 1
    · obtain ⟨cs, rfl⟩ := List.length_eq_one_iff.mp hone
      exact templateFragments_single hs (accepted_of_comparableItems hok).1 hoperation column names
    · exact .inr (templateFragments_list hs hoperation hone column names)

/-- An accepted filter of an integer rule with a template fails for a number with too many digits or
    a range whose only operand has no partner, and else becomes one fragment. The fragment binds
    integers only and negates a marked list exactly when the filter is one item in the place of an
    operation or made of plain integers. -/
theorem template_binds_integers_iff (g : Grammar) (r : Rule) (template : String)
    (hr : TemplatedInteger r template) (field column : String) (data : Table Value) (s : String)
    (hdata : Table.get? data field = some (.str s)) (hne : s ≠ "")
    (hok : GrammarCheck.integer.run g field data (r.prepare (some g)).spec = .ok ())
    (limit : DigitLimit) (names : ParamNames) :
    ∃ built rest, build limit (r.prepare (some g)) column (.str s) names = (built, rest) ∧
      ((built = .error .tooManyDigits ∧
          ∃ cs ∈ itemsOf (flag (r.prepare (some g)).spec.listAllowed) s, fits limit cs = false) ∨
        (built = .error .outOfRange ∧ ∃ v, r.spec.avoidBetween = some (.tuple [v])) ∨
        ∃ f, built = .ok [f] ∧
          (BindsIntegers template (names.name 0)
              (itemsOf (flag (r.prepare (some g)).spec.listAllowed) s) f ↔
            FitsTemplate template (itemsOf (flag (r.prepare (some g)).spec.listAllowed) s))) := by
  rw [Rule.prepare_of_unprepared hr.unprepared] at hok ⊢
  have hs : ReadsIntegers (unranged r.spec.prepared) := by
    have hreads : ReadsIntegers (unranged r.spec).prepared :=
      readsIntegers_prepared hr.type hr.noDate (.inl rfl)
    exact hreads
  have haccepted := comparableItems_of_run hs hdata hne ((run_unranged g field data _).trans hok)
  have hitems : items r.spec.prepared (.str s) =
      .ok ((itemsOf (flag r.spec.prepared.listAllowed) s).map String.ofList) := items_str hs s
  have hpieces := itemsOf_ne_nil (flag r.spec.prepared.listAllowed) s
  have hbuild := build_template (r := { r with
    spec := r.spec.prepared, custom := chosenCheck (some g) r }) hs.base hr.noCallback hr.given
    hitems (by simpa using hpieces) limit column names
  have hcases := templateFragments_cases hs hpieces haccepted hr.place column names
  obtain ⟨hlimited, -⟩ := templateFragments_limited limit r.spec.prepared template column
    ((itemsOf (flag r.spec.prepared.listAllowed) s).map String.ofList) names
  cases hmade : templateFragments limit r.spec.prepared template column
      ((itemsOf (flag r.spec.prepared.listAllowed) s).map String.ofList) names with
  | mk built rest =>
    rw [hmade] at hlimited
    refine ⟨built, rest, hbuild.trans hmade, ?_⟩
    rcases hlimited with hsame | ⟨hfault, cs, hcs, hlong⟩
    · obtain rfl : built = _ := hsame
      exact .inr hcases
    · refine .inl ⟨hfault, cs, ?_, hlong⟩
      simpa using hcs

def totalTemplate : String := "COUNT(x) {OPERATION_VALUE}"

def totalRule : Rule :=
  { spec := { type := some (.known .integer), template := some totalTemplate } }

def totalNames : ParamNames := ParamNames.ofColumn "t.total"

theorem totalRule_templated : TemplatedInteger totalRule totalTemplate :=
  ⟨rfl, rfl, rfl, rfl, rfl, .inl (by decide +kernel)⟩

theorem plain_list_bound : ∃ f rest,
    build digitLimit (totalRule.prepare (some {})) "t.total" (.str "1,2") totalNames =
      (.ok [f], rest) ∧ BindsIntegers totalTemplate (totalNames.name 0) [['1'], ['2']] f := by
  have hitems : itemsOf (flag (totalRule.prepare (some {})).spec.listAllowed) "1,2" =
      [['1'], ['2']] := by decide +kernel
  obtain ⟨built, rest, hbuilt, hcases⟩ := template_binds_integers_iff {} totalRule totalTemplate
    totalRule_templated "total" "t.total" [("total", .str "1,2")] "1,2" rfl (by decide) rfl
    digitLimit totalNames
  rw [hitems] at hcases
  rcases hcases with ⟨-, hlong⟩ | ⟨-, v, hv⟩ | ⟨f, rfl, hiff⟩
  · exact absurd hlong (by decide)
  · cases hv
  · refine ⟨f, rest, hbuilt, hiff.mpr (.inr ?_)⟩
    have h1 : Spells ['1'] 1 := ⟨0, by decide⟩
    have h2 : Spells ['2'] 2 := ⟨0, by decide⟩
    simp only [List.forall_mem_cons]
    exact ⟨⟨1, h1⟩, ⟨2, h2⟩, by simp⟩

theorem marked_list_bound_whole :
    GrammarCheck.integer.run {} "total" [("total", .str "!1,2")] totalRule.spec.prepared = .ok () ∧
      itemsOf (flag totalRule.spec.prepared.listAllowed) "!1,2" = [['!', '1'], ['2']] ∧
      ∃ f rest, build digitLimit (totalRule.prepare (some {})) "t.total" (.str "!1,2") totalNames =
          (.ok [f], rest) ∧
        f = ⟨Text.replaced totalTemplate "{OPERATION_VALUE}" ("IN (" ++ totalNames.name 0 ++ ")"),
          [(totalNames.name 0, .list [.str "!1", .int 2])]⟩ ∧
        f.expression ≠ Text.replaced totalTemplate "{OPERATION_VALUE}"
          ("NOT IN (" ++ totalNames.name 0 ++ ")") ∧
        ¬BindsIntegers totalTemplate (totalNames.name 0) [['!', '1'], ['2']] f := by
  refine ⟨rfl, by decide +kernel, _, _, rfl, rfl, by decide +kernel, fun h => ?_⟩
  rcases h.integers _ List.mem_cons_self with ⟨n, hn⟩ | ⟨ns, hns⟩
  · cases hn
  · cases ns with
    | nil => cases hns
    | cons n ns => cases (List.cons.inj (Value.list.inj hns)).1

end FieldRules.Filter
