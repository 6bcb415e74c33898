import FieldRules.Filter.Prepare
import FieldRules.Proofs.Filter.IntegerItems
import FieldRules.Proofs.Filter.Texts

namespace FieldRules.Filter

open Numeral

structure ReadsIntegers (spec : RuleSpec) : Prop where
  base : spec.effectiveBase? = some .integer
  noDate : flag spec.date = false
  noWildcard : spec.wildcard = none
  plainRange : PlainRange spec

variable {spec : RuleSpec} {column : String}

theorem boundText_of_spells (hs : ReadsIntegers spec) {cs : List Char} {n : Int}
    (h : Spells cs n) : boundText none spec (String.ofList cs) = .ok (.int n) := by
  have hspells : Spells (String.ofList cs).toList n := by rwa [String.toList_ofList]
  exact boundText_of_integer none hs.base hs.noDate hspells

theorem boundAll_of_spells (hs : ReadsIntegers spec) {items : List (List Char)}
    (h : ∀ cs ∈ items, ∃ n, Spells cs n) :
    ∃ ns : List Int, boundAll none spec (items.map String.ofList) = .ok (ns.map .int) ∧
      ∀ x, x ∈ ns ↔ ∃ cs ∈ items, Spells cs x := by
  induction items with
  | nil => exact ⟨[], rfl, by simp⟩
  | cons cs items ih =>
    obtain ⟨n, hn⟩ := h cs (by simp)
    obtain ⟨ns, hns, hmem⟩ := ih fun ds hds => h ds (List.mem_cons_of_mem cs hds)
    refine ⟨n :: ns, ?_, ?_⟩
    · simp [boundAll, boundText_of_spells hs hn, hns, Except.map]
    · intro x
      have hx : Spells cs x ↔ x = n := ⟨fun hx => hx.unique hn, fun hx => hx ▸ hn⟩
      simp [hmem, hx]

theorem int_mem_map (x : Int) (ns : List Int) : Value.int x ∈ ns.map Value.int ↔ x ∈ ns := by
  simp

theorem comparison?_text {c : Comparator} {rest : List Char} {n : Int}
    (hc : c.allowed spec = true) (hn : Spells rest n) :
    Match.comparison? spec (c.text.toList ++ rest) = some (.compare c rest) := by
  have heq : '=' ∉ rest := hn.not_mem (by decide)
  cases rest with
  | nil => cases c <;> simp [Match.comparison?, Comparator.text, hc]
  | cons d rest =>
    have hd : d ≠ '=' := by
      rintro rfl
      exact heq List.mem_cons_self
    cases c <;> simp [Match.comparison?, Comparator.text, hc, hd]

theorem comparison?_of_not_isOperator {cs : List Char} (h : isOperator cs = false) :
    Match.comparison? spec cs = none := by
  unfold Match.comparison?
  split <;> simp_all [isOperator]

theorem find?_of_isOperator (hs : ReadsIntegers spec) {first : Bool} {cs : List Char}
    (h : Accepted spec first cs) (hop : isOperator cs = true) (single : Bool) :
    ∃ m t, Match.find? spec single cs = .ok (some m) ∧ m.test none spec = .ok t ∧
      t.Integral ∧ ∀ x, t.Meets x ↔ Admits x cs := by
  cases h with
  | @range _ low high a b hr ha hb =>
    have hcut := Text.cutAt_append_cons (ha.not_mem (c := '|') (by decide)) high
    refine ⟨.range low high, .between (.int a) (.int b), ?_, ?_, .between a b, fun x => ?_⟩
    · simp [Match.find?, hr, hcut]
    · simp [Match.test, boundText_of_spells hs ha, boundText_of_spells hs hb]
    · rw [admits_range_iff ha hb]
      rfl
  | @compare _ c rest n hc hn =>
    have hcut : Text.cutAt '|' (c.text.toList ++ rest) = (c.text.toList ++ rest, none) :=
      Text.cutAt_of_not_mem (bar_not_mem_compare c hn)
    refine ⟨.compare c rest, .compare c (.int n), ?_, ?_, .compare c n, fun x => ?_⟩
    · simp [Match.find?, hcut, comparison?_text hc hn]
    · simp [Match.test, boundText_of_spells hs hn, Except.map]
    · rw [admits_compare_iff c hn]
      rfl
  | negated _ hn =>
    rw [isOperator_of_marked hn] at hop
    cases hop
  | plain hn =>
    rw [isOperator_of_spells hn] at hop
    cases hop

theorem bar_not_mem_of_not_isOperator {cs : List Char} (h : isOperator cs = false) :
    '|' ∉ cs := by
  intro hm
  simp [isOperator, hm] at h

theorem find?_of_not_isOperator (hwildcard : spec.wildcard = none) {cs : List Char} {single : Bool}
    (hop : isOperator cs = false) (hmark : single = true → cs.head? ≠ some '!') :
    Match.find? spec single cs = .ok none := by
  have hcut : Text.cutAt '|' cs = (cs, none) :=
    Text.cutAt_of_not_mem (bar_not_mem_of_not_isOperator hop)
  have hneg : (single && flag spec.negationAllowed && cs.head? == some '!') = false := by
    cases single with
    | false => rfl
    | true => simp [hmark rfl]
  simp only [Match.find?, hcut, ite_self, comparison?_of_not_isOperator hop, hneg,
    hwildcard, wildcardEnds, Except.map]
  split
  · contradiction
  · split
    · rfl
    · simp [Match.wildcard?]

theorem find?_of_marked (hneg : flag spec.negationAllowed = true) {cs : List Char} {n : Int}
    (h : Spells cs n) : Match.find? spec true ('!' :: cs) = .ok (some (.negation cs)) := by
  have hop := isOperator_of_marked h
  have hcut : Text.cutAt '|' ('!' :: cs) = ('!' :: cs, none) :=
    Text.cutAt_of_not_mem (bar_not_mem_of_not_isOperator hop)
  simp [Match.find?, hcut, comparison?_of_not_isOperator hop, hneg]

theorem testFragment_ok (column : String) (hs : ReadsIntegers spec) {names : ParamNames}
    (hn : ' ' ∉ names.base.toList) {t : Test} (ht : t.Integral) (k : Nat) :
    ∃ f, testFragment spec column names k (.ok t) = (.ok f, names.advance k) ∧
      (∀ e ∈ f.params, BoundIntegers e.2) ∧ ∀ x, HoldsIn column x f ↔ t.Meets x := by
  have hpq : names.name 0 ≠ names.name 1 := fun h => absurd (names.name_injective h) (by decide)
  obtain ⟨f, hf, hparams, hholds⟩ := exists_fragment column hs.plainRange ht
    (blank_not_mem_name hn 0) (blank_not_mem_name hn 1) hpq
  refine ⟨f, ?_, ?_, hholds⟩
  · simp [testFragment, drawn, Except.bind, hf]
  · rw [hparams]
    exact ht.bound _ _

theorem operatorFragments_ok (hs : ReadsIntegers spec) (column : String) {names : ParamNames}
    (hn : ' ' ∉ names.base.toList) {single : Bool} {items : List (List Char)}
    (hacc : ∀ cs ∈ items, ∃ first, Accepted spec first cs)
    (hmark : single = true → ∀ cs ∈ items, cs.head? ≠ some '!') :
    ∃ fs rest, operatorFragments none spec column single (items.map String.ofList) names =
        (.ok (fs, (items.filter fun cs => !isOperator cs).map String.ofList), rest) ∧
      ' ' ∉ rest.base.toList ∧ (∀ f ∈ fs, ∀ e ∈ f.params, BoundIntegers e.2) ∧
      ∀ x, (∃ f ∈ fs, HoldsIn column x f) ↔ ∃ cs ∈ items, Admits x cs := by
  induction items generalizing names with
  | nil => exact ⟨[], names, rfl, hn, by simp, by simp⟩
  | cons cs items ih =>
    obtain ⟨first, hcs⟩ := hacc cs (by simp)
    have hacc' : ∀ ds ∈ items, ∃ first, Accepted spec first ds :=
      fun ds hds => hacc ds (List.mem_cons_of_mem cs hds)
    have hmark' : single = true → ∀ ds ∈ items, ds.head? ≠ some '!' :=
      fun h ds hds => hmark h ds (List.mem_cons_of_mem cs hds)
    by_cases hop : isOperator cs = true
    · obtain ⟨m, t, hfind, htest, hint, hmeets⟩ := find?_of_isOperator hs hcs hop single
      obtain ⟨f, hf, hbound, hholds⟩ := testFragment_ok column hs hn hint m.draws
      obtain ⟨fs, rest, hfs, hrest, hbounds, hall⟩ := @ih (names.advance m.draws) hn hacc' hmark'
      refine ⟨f :: fs, rest, ?_, hrest, ?_, fun x => ?_⟩
      · simp [operatorFragments, hfind, htest, hf, hfs, Except.map, hop]
      · intro g hg
        rcases List.mem_cons.mp hg with rfl | hg
        · exact hbound
        · exact hbounds g hg
      · simp [hholds, hmeets, hall]
    · have hop : isOperator cs = false := by simpa using hop
      obtain ⟨fs, rest, hfs, hrest, hbounds, hall⟩ := ih hn hacc' hmark'
      have hfind : Match.find? spec single cs = .ok none :=
        find?_of_not_isOperator hs.noWildcard hop fun h => hmark h cs (by simp)
      have hnone : ∀ x, ¬Admits x cs := by
        intro x hx
        rw [isOperator_of_admits hx] at hop
        cases hop
      refine ⟨fs, rest, ?_, hrest, hbounds, fun x => ?_⟩
      · simp [operatorFragments, hfind, hfs, Except.map, hop]
      · simp [hnone, hall]

theorem negatedItems_map (items : List (List Char))
    (hmark : isMarked items = true → flag spec.negationAllowed = true) :
    negatedItems spec (items.map String.ofList) =
      (isMarked items, (unmarked items).map String.ofList) := by
  unfold isMarked at hmark ⊢
  unfold unmarked
  split at hmark
  · simp [negatedItems, hmark rfl]
  next hne =>
    cases items with
    | nil => rfl
    | cons cs rest =>
      cases cs with
      | nil => simp [negatedItems]
      | cons c cs =>
        have hc : c ≠ '!' := by
          rintro rfl
          exact hne cs rest rfl
        simp [negatedItems, hc]

theorem equality_ok (hs : ReadsIntegers spec) {items : List (List Char)}
    (hspell : ∀ cs ∈ unmarked items, ∃ n, Spells cs n)
    (hmark : isMarked items = true → flag spec.negationAllowed = true) :
    ∃ t, equality none spec false (items.map String.ofList) = .ok t ∧ t.Integral ∧
      ∀ x, t.Meets x ↔ ((∃ cs ∈ unmarked items, Spells cs x) ↔ isMarked items = false) := by
  obtain ⟨ns, hns, hmem⟩ := boundAll_of_spells hs hspell
  rw [equality, negatedItems_map items hmark]
  dsimp only
  split
  next s hone _ =>
    obtain ⟨cs, hcs, rfl⟩ := List.map_eq_singleton_iff.mp hone
    obtain ⟨n, hn⟩ := hspell cs (by simp [hcs])
    refine ⟨.equal (isMarked items) (.int n), ?_, .equal _ n, fun x => ?_⟩
    · simp [boundText_of_spells hs hn, Except.map]
    · have hx : x = n ↔ ∃ ds ∈ unmarked items, Spells ds x := by
        rw [hcs]
        simp only [List.mem_singleton, exists_eq_left]
        exact ⟨fun h => h ▸ hn, fun h => h.unique hn⟩
      rw [← hx]
      rfl
  next =>
    refine ⟨.among (isMarked items) (ns.map .int), ?_, .among _ ns, fun x => ?_⟩
    · simp [hns, Except.map]
    · rw [← hmem, ← int_mem_map]
      rfl

theorem not_admits_of_not_isOperator {x : Int} {cs : List Char} (h : isOperator cs = false) :
    ¬Admits x cs := by
  intro hx
  rw [isOperator_of_admits hx] at h
  cases h

theorem selected_single_marked {x n : Int} {cs : List Char} (h : Spells cs n) :
    Selected x ['!' :: cs] ↔ (x = n ↔ true = false) := by
  have hplain : plainItems ['!' :: cs] = [cs] := by
    simp [plainItems, unmarked, isOperator_of_spells h]
  have hx : Spells cs x ↔ x = n := ⟨fun hx => hx.unique h, fun hx => hx ▸ h⟩
  have hadmits : ¬Admits x ('!' :: cs) := not_admits_of_not_isOperator (isOperator_of_marked h)
  simp [Selected, hplain, hx, hadmits, isMarked]

section Items

variable {items : List (List Char)} (hok : comparableItems spec .integer true items = .ok true)

include hok

theorem accepted_of_mem {cs : List Char} (hcs : cs ∈ items) : ∃ first, Accepted spec first cs := by
  cases items with
  | nil => simp at hcs
  | cons ds rest =>
    obtain ⟨hhead, htail⟩ := accepted_of_comparableItems hok
    rcases List.mem_cons.mp hcs with rfl | hcs
    · exact ⟨true, hhead⟩
    · exact ⟨false, htail cs hcs⟩

theorem not_marked_of_mem (hm : isMarked items = false) {cs : List Char} (hcs : cs ∈ items) :
    cs.head? ≠ some '!' := by
  intro hbang
  obtain ⟨es, rfl⟩ := List.head?_eq_some_iff.mp hbang
  cases items with
  | nil => simp at hcs
  | cons ds rest =>
    obtain ⟨-, htail⟩ := accepted_of_comparableItems hok
    rcases List.mem_cons.mp hcs with rfl | hcs
    · cases hm
    · cases (htail _ hcs).of_marked.1

theorem marked_cases (hm : isMarked items = true) :
    ∃ cs rest n, items = ('!' :: cs) :: rest ∧ Spells cs n ∧ flag spec.negationAllowed = true ∧
      ∀ ds ∈ rest, Accepted spec false ds := by
  unfold isMarked at hm
  split at hm
  next cs rest =>
    obtain ⟨hhead, htail⟩ := accepted_of_comparableItems hok
    obtain ⟨-, hneg, n, hn⟩ := hhead.of_marked
    exact ⟨cs, rest, n, rfl, hn, hneg, htail⟩
  next => cases hm

theorem spells_of_mem_plainItems {cs : List Char} (hcs : cs ∈ plainItems items) :
    ∃ n, Spells cs n := by
  obtain ⟨hmem, hop⟩ := List.mem_filter.mp hcs
  have hop : isOperator cs = false := by simpa using hop
  cases hm : isMarked items with
  | true =>
    obtain ⟨ds, rest, n, rfl, hn, -, htail⟩ := marked_cases hok hm
    rcases List.mem_cons.mp hmem with rfl | hmem
    · exact ⟨n, hn⟩
    · refine (htail cs hmem).spells hop fun hbang => ?_
      obtain ⟨es, rfl⟩ := List.head?_eq_some_iff.mp hbang
      cases (htail _ hmem).of_marked.1
  | false =>
    have hsame : unmarked items = items := by
      unfold unmarked
      split
      · cases hm
      · rfl
    rw [hsame] at hmem
    obtain ⟨first, hacc⟩ := accepted_of_mem hok hmem
    exact hacc.spells hop (not_marked_of_mem hok hm hmem)

theorem unmarked_filter :
    unmarked (items.filter fun cs => !isOperator cs) = plainItems items ∧
      isMarked (items.filter fun cs => !isOperator cs) = isMarked items := by
  cases hm : isMarked items with
  | true =>
    obtain ⟨cs, rest, n, rfl, hn, -, -⟩ := marked_cases hok hm
    simp [plainItems, unmarked, isMarked, isOperator_of_marked hn, isOperator_of_spells hn]
  | false =>
    have hnone : ∀ l : List (List Char), (∀ cs ∈ l, cs.head? ≠ some '!') →
        unmarked l = l ∧ isMarked l = false := by
      intro l hl
      unfold unmarked isMarked
      split
      next cs rest => exact absurd rfl (hl ('!' :: cs) (by simp))
      next => exact ⟨rfl, rfl⟩
    have hall : ∀ cs ∈ items, cs.head? ≠ some '!' := fun cs hcs => not_marked_of_mem hok hm hcs
    obtain ⟨hsame, -⟩ := hnone items hall
    rw [plainItems, hsame]
    exact hnone _ fun cs hcs => hall cs (List.mem_filter.mp hcs).1

theorem itemFragments_single_marked (hs : ReadsIntegers spec) (column : String)
    {names : ParamNames} (hn : ' ' ∉ names.base.toList) (hm : isMarked items = true)
    (hone : items.length = 1) :
    ∃ fs rest, itemFragments none spec column (items.map String.ofList) names = (.ok fs, rest) ∧
      (∀ f ∈ fs, ∀ e ∈ f.params, BoundIntegers e.2) ∧
      ∀ x, (∃ f ∈ fs, HoldsIn column x f) ↔ Selected x items := by
  obtain ⟨cs, rest, n, rfl, hspell, hneg, -⟩ := marked_cases hok hm
  obtain rfl : rest = [] := by simpa using hone
  obtain ⟨f, hf, hbound, hholds⟩ := testFragment_ok column hs hn (.equal true n) 1
  have htest : (Match.negation cs).test none spec = .ok (.equal true (.int n)) := by
    simp [Match.test, boundText_of_spells hs hspell, Except.map]
  refine ⟨[f], names.advance 1, ?_, by simpa using hbound, fun x => ?_⟩
  · simp [itemFragments, operatorFragments, find?_of_marked hneg hspell, htest, Match.draws, hf,
      Except.map]
  · rw [selected_single_marked hspell]
    simp only [List.mem_singleton, exists_eq_left]
    exact hholds x

theorem plainItems_eq_nil_iff :
    plainItems items = [] ↔ items.filter (fun cs => !isOperator cs) = [] := by
  rw [← (unmarked_filter hok).1]
  unfold unmarked
  split <;> simp_all

theorem plainFragment_ok (hs : ReadsIntegers spec) (column : String) {names : ParamNames}
    (hn : ' ' ∉ names.base.toList) :
    ∃ f, equalityFragment none spec column false
        ((items.filter fun cs => !isOperator cs).map String.ofList) names =
          (.ok f, names.advance 1) ∧
      (∀ e ∈ f.params, BoundIntegers e.2) ∧
      ∀ x, HoldsIn column x f ↔
        ((∃ cs ∈ plainItems items, Spells cs x) ↔ isMarked items = false) := by
  obtain ⟨hplain, hsame⟩ := unmarked_filter hok
  have hspell : ∀ cs ∈ unmarked (items.filter fun cs => !isOperator cs), ∃ n, Spells cs n := by
    rw [hplain]
    exact fun cs hcs => spells_of_mem_plainItems hok hcs
  have hneg : isMarked (items.filter fun cs => !isOperator cs) = true →
      flag spec.negationAllowed = true := by
    rw [hsame]
    intro hm
    obtain ⟨-, -, -, -, -, hneg, -⟩ := marked_cases hok hm
    exact hneg
  obtain ⟨t, ht, hint, hmeets⟩ := equality_ok hs hspell hneg
  obtain ⟨f, hf, hbound, hholds⟩ := testFragment_ok column hs hn hint 1
  rw [hplain, hsame] at hmeets
  exact ⟨f, by rw [equalityFragment, ht, hf], hbound, fun x => (hholds x).trans (hmeets x)⟩

theorem itemFragments_ok (hs : ReadsIntegers spec) (column : String) {names : ParamNames}
    (hn : ' ' ∉ names.base.toList) :
    ∃ fs rest, itemFragments none spec column (items.map String.ofList) names = (.ok fs, rest) ∧
      (∀ f ∈ fs, ∀ e ∈ f.params, BoundIntegers e.2) ∧
      ∀ x, (∃ f ∈ fs, HoldsIn column x f) ↔ Selected x items := by
  by_cases hnegation : isMarked items = true ∧ items.length = 1
  · exact itemFragments_single_marked hok hs column hn hnegation.1 hnegation.2
  -- a mark in front of a longer list stays with its first plain item
  · have hmark : ((items.map String.ofList).length == 1) = true →
        ∀ cs ∈ items, cs.head? ≠ some '!' := by
      intro hone cs hcs
      have hm : isMarked items = false := by
        by_contra hm
        exact hnegation ⟨by simpa using hm, by simpa using hone⟩
      exact not_marked_of_mem hok hm hcs
    obtain ⟨fs, rest, hfs, hrest, hbounds, hall⟩ := operatorFragments_ok hs column hn
      (fun cs hcs => accepted_of_mem hok hcs) hmark
    obtain ⟨f, hf, hbound, hholds⟩ := plainFragment_ok hok hs column hrest
    cases hbucket : items.filter fun cs => !isOperator cs with
    | nil =>
      rw [hbucket] at hfs
      refine ⟨fs, rest, by simp only [itemFragments, hfs, List.map_nil], hbounds, fun x => ?_⟩
      simp [hall, Selected, (plainItems_eq_nil_iff hok).mpr hbucket]
    | cons b bs =>
      have hne : plainItems items ≠ [] := by
        rw [Ne, plainItems_eq_nil_iff hok, hbucket]
        simp
      rw [hbucket, List.map_cons] at hfs hf
      refine ⟨fs ++ [f], rest.advance 1, ?_, ?_, fun x => ?_⟩
      · simp only [itemFragments, hfs, hf, Except.map]
      · intro g hg
        rcases List.mem_append.mp hg with hg | hg
        · exact hbounds g hg
        · exact List.mem_singleton.mp hg ▸ hbound
      · simp only [List.mem_append, List.mem_singleton, or_and_right, exists_or, exists_eq_left]
        rw [hall, hholds, Selected]
        simp [hne]

end Items

theorem readsIntegers_prepared {spec : RuleSpec} (htype : spec.type = some (.known .integer))
    (hdate : flag spec.date = false) (hrange : PlainRange spec) :
    ReadsIntegers spec.prepared := by
  constructor
  · simp [RuleSpec.prepared, RuleSpec.effectiveBase?, RuleSpec.effectiveType, htype,
      DeclaredType.truthy, DeclaredType.base?]
  · exact hdate
  · simp [RuleSpec.prepared, RuleSpec.isPlainString, htype, DeclaredType.base?]
  · exact hrange

structure PlainInteger (r : Rule) : Prop where
  type : r.spec.type = some (.known .integer)
  unprepared : r.spec.filterType = none
  noEnum : r.spec.hasEnum = false
  noDate : flag r.spec.date = false
  noTemplate : Text.nonempty? r.spec.template = none
  noCallback : r.callback = none
  plainRange : PlainRange r.spec

def itemsOf (lists : Bool) (s : String) : List (List Char) :=
  if lists then Text.splitOn ',' s.toList else [s.toList]

theorem prepare_of_unprepared {g : Option Grammar} {r : Rule} (h : r.spec.filterType = none) :
    (r.prepare g).spec = r.spec.prepared ∧ (r.prepare g).callback = r.callback := by
  simp [Rule.prepare, RuleSpec.isPrepared, h]

theorem itemsOf_ne_nil (lists : Bool) (s : String) : itemsOf lists s ≠ [] := by
  cases lists with
  | true => exact Text.splitOn_ne_nil ',' s.toList
  | false => simp [itemsOf]

theorem listItems_str (spec : RuleSpec) (s : String) :
    (Grammar.listItems spec (.str s)).map String.toList = itemsOf (flag spec.listAllowed) s := by
  unfold Grammar.listItems itemsOf
  split <;> simp [Text.pieces, typed_str, Function.comp_def]

theorem items_str (hs : ReadsIntegers spec) (s : String) :
    items spec (.str s) = .ok ((itemsOf (flag spec.listAllowed) s).map String.ofList) := by
  have hplain : isPlain spec = false := by simp [isPlain, hs.base]
  rw [items_of_str hplain, ← listItems_str]
  simp [Function.comp_def]

theorem reader_integer (g : Grammar) (hs : ReadsIntegers spec) : g.reader spec = .integer := by
  simp [Grammar.reader, hs.noDate, hs.base]

theorem comparableItems_of_run {g : Grammar} {field : String} {data : Table Value} {s : String}
    (hs : ReadsIntegers spec) (hdata : Table.get? data field = some (.str s)) (hne : s ≠ "")
    (hok : GrammarCheck.integer.run g field data spec = .ok ()) :
    comparableItems spec .integer true (itemsOf (flag spec.listAllowed) s) = .ok true := by
  simp only [GrammarCheck.run, Grammar.checkComparable, informed?_str hdata hne, reader_integer g hs,
    listItems_str] at hok
  cases h : comparableItems spec .integer true (itemsOf (flag spec.listAllowed) s) with
  | error e => rw [h] at hok; cases hok
  | ok b =>
    cases b with
    | false => rw [h] at hok; cases hok
    | true => rfl

/-- An accepted filter compiles, binds integers only and selects the rows that its text names. -/
theorem integer_filter_selects (g : Grammar) (r : Rule) (hr : PlainInteger r)
    (field column origin : String) (counter : Nat) (data : Table Value) (s : String)
    (hdata : Table.get? data field = some (.str s)) (hne : s ≠ "")
    (hok : GrammarCheck.integer.run g field data (r.prepare (some g)).spec = .ok ()) :
    ∃ fragments rest,
      build none (r.prepare (some g)) column (.str s) ⟨ParamNames.baseOf origin, counter⟩ =
        (.ok fragments, rest) ∧
      (∀ f ∈ fragments, ∀ e ∈ f.params, BoundIntegers e.2) ∧
      ∀ x, (∃ f ∈ fragments, HoldsIn column x f) ↔
        Selected x (itemsOf (flag (r.prepare (some g)).spec.listAllowed) s) := by
  obtain ⟨hspec, hcall⟩ := prepare_of_unprepared (g := some g) hr.unprepared
  have hs : ReadsIntegers (r.prepare (some g)).spec := by
    rw [hspec]
    exact readsIntegers_prepared hr.type hr.noDate hr.plainRange
  have hcall : (r.prepare (some g)).callback = none := hcall.trans hr.noCallback
  have htemplate : Text.nonempty? (r.prepare (some g)).spec.template = none := by
    rw [hspec]
    exact hr.noTemplate
  have henum : (r.prepare (some g)).spec.hasEnum = false := by
    rw [hspec]
    exact hr.noEnum
  have hliteral : isLiteral (r.prepare (some g)) = false := by simp [isLiteral, hs.base]
  have hitems := comparableItems_of_run hs hdata hne hok
  have hblank : ' ' ∉ (ParamNames.mk (ParamNames.baseOf origin) counter).base.toList :=
    blank_not_mem_baseOf origin
  obtain ⟨fs, rest, hfs, hbounds, hall⟩ := itemFragments_ok hitems hs column hblank
  refine ⟨fs, rest, ?_, hbounds, hall⟩
  rw [build, hliteral, items_str hs]
  obtain ⟨cs, css, hcs⟩ := List.exists_cons_of_ne_nil
    (itemsOf_ne_nil (flag (r.prepare (some g)).spec.listAllowed) s)
  rw [hcs] at hfs ⊢
  simpa [ruleFragments, hcall, htemplate, henum] using hfs

def ageRule : Rule := { spec := { type := some (.known .integer), avoidBetween := some (.bool true) } }

theorem selected_range_or_value (x : Int) :
    Selected x [['1', '|', '3'], ['5']] ↔ (1 ≤ x ∧ x ≤ 3) ∨ x = 5 := by
  have h1 : Spells ['1'] 1 := ⟨0, by decide⟩
  have h3 : Spells ['3'] 3 := ⟨0, by decide⟩
  have h5 : Spells ['5'] 5 := ⟨0, by decide⟩
  have hrange : Admits x ['1', '|', '3'] ↔ 1 ≤ x ∧ x ≤ 3 := admits_range_iff h1 h3
  have hvalue : ¬Admits x ['5'] := not_admits_of_not_isOperator (by decide)
  have hplain : plainItems [['1', '|', '3'], ['5']] = [['5']] := by decide
  have hx : Spells ['5'] x ↔ x = 5 := ⟨fun hx => hx.unique h5, fun hx => hx ▸ h5⟩
  simp [Selected, hrange, hvalue, hplain, isMarked, hx]

theorem age_filter_selects :
    ∃ fragments rest,
      build none (ageRule.prepare (some {})) "t.age" (.str "1|3,5") ⟨ParamNames.baseOf "t.age", 1⟩ =
        (.ok fragments, rest) ∧
      ∀ x, (∃ f ∈ fragments, HoldsIn "t.age" x f) ↔ (1 ≤ x ∧ x ≤ 3) ∨ x = 5 := by
  have hage : PlainInteger ageRule := ⟨rfl, rfl, rfl, rfl, rfl, rfl, .inr ⟨true, rfl⟩⟩
  have hitems : itemsOf (flag (ageRule.prepare (some {})).spec.listAllowed) "1|3,5" =
      [['1', '|', '3'], ['5']] := by decide +kernel
  obtain ⟨fs, rest, hfs, -, hall⟩ := integer_filter_selects {} ageRule hage "age" "t.age" "t.age" 1
    [("age", .str "1|3,5")] "1|3,5" rfl (by decide) rfl
  rw [hitems] at hall
  exact ⟨fs, rest, hfs, fun x => (hall x).trans (selected_range_or_value x)⟩

end FieldRules.Filter
