import FieldRules.Proofs.Filter.Buildable
import FieldRules.Proofs.Filter.IntegerMeaning
import FieldRules.Proofs.Filter.ListNegation
import Mathlib.Data.List.Forall2

namespace FieldRules.Filter

structure Enumerated (r : Rule) (values : List Value) : Prop where
  unprepared : r.spec.filterType = none
  noDate : flag r.spec.date = false
  noTemplate : Text.nonempty? r.spec.template = none
  noCallback : r.callback = none
  declared : ∃ enum, r.spec.enumValues = some enum ∧ enum.truthy = true ∧
    enum.elements? = some values
  kind : r.spec.type = some (.known .string) ∧ (∀ v ∈ values, ∃ s, v = .str s) ∨
    r.spec.type = some (.known .integer) ∧ ∀ v ∈ values, ∃ n, v = .int n

def excludes (r : Rule) (s : String) : Bool := r.spec.negationAllowed.getD true && negates s

def listedTexts (r : Rule) (s : String) : List String :=
  let text := if excludes r s then bare s else s
  if r.spec.listAllowed.getD true then Text.pieces text ',' else [text]

variable {limit : Numeral.DigitLimit} {spec : RuleSpec} {r : Rule} {values : List Value}

theorem negatedItems_of_unmarked {texts : List String}
    (h : (flag spec.negationAllowed && texts.head?.any negates) = false) :
    negatedItems spec texts = (false, texts) := by
  cases texts with
  | nil => rfl
  | cons item rest =>
    rw [negatedItems]
    split
    next cs hflag hcs => simp [hflag, negates, hcs] at h
    next => rfl

theorem negatedItems_of_marked {cs : List Char} {rest : List String}
    (h : flag spec.negationAllowed = true) :
    negatedItems spec (String.ofList ('!' :: cs) :: rest) = (true, String.ofList cs :: rest) := by
  simp [negatedItems, h]

theorem listItems_mark (spec : RuleSpec) (cs : List Char) : ∃ ds rest,
    Grammar.listItems spec (.str (String.ofList ('!' :: cs))) = String.ofList ('!' :: ds) :: rest ∧
      Grammar.listItems spec (.str (String.ofList cs)) = String.ofList ds :: rest := by
  simp only [listItems_of_str]
  split
  · obtain ⟨piece, pieces, hpieces⟩ := List.exists_cons_of_ne_nil (Text.splitOn_ne_nil ',' cs)
    exact ⟨piece, pieces.map String.ofList, by simp [Text.pieces, Text.splitOn, hpieces],
      by simp [Text.pieces, hpieces]⟩
  · exact ⟨cs, [], rfl, rfl⟩

theorem head?_listItems_negates (spec : RuleSpec) (s : String) :
    (Grammar.listItems spec (.str s)).head?.any negates = negates s := by
  rw [listItems_of_str]
  split
  · cases hs : s.toList with
    | nil => simp [Text.pieces, hs, Text.splitOn, negates]
    | cons c cs =>
      obtain ⟨piece, pieces, hpieces⟩ := List.exists_cons_of_ne_nil (Text.splitOn_ne_nil ',' cs)
      by_cases hc : c = ','
      · subst hc
        simp [Text.pieces, hs, Text.splitOn, negates]
      · simp [Text.pieces, hs, Text.splitOn, hc, hpieces, negates]
  · rfl

theorem negatedItems_listItems (spec : RuleSpec) (s : String) :
    negatedItems spec (Grammar.listItems spec (.str s)) =
      (flag spec.negationAllowed && negates s, Grammar.listItems spec
        (.str (if flag spec.negationAllowed && negates s then bare s else s))) := by
  cases hmark : flag spec.negationAllowed && negates s with
  | false =>
    rw [← head?_listItems_negates spec s] at hmark
    exact negatedItems_of_unmarked hmark
  | true =>
    obtain ⟨hflag, hneg⟩ := Bool.and_eq_true_iff.mp hmark
    obtain ⟨cs, hcs⟩ := List.head?_eq_some_iff.mp (eq_of_beq hneg)
    obtain rfl : s = String.ofList ('!' :: cs) := by rw [← hcs, String.ofList_toList]
    obtain ⟨ds, rest, hmarked, hbare⟩ := listItems_mark spec cs
    rw [if_pos rfl, bare, if_pos hneg, hmarked, negatedItems_of_marked hflag]
    simp [hbare]

theorem mem_of_enumItems {allowed texts : List String}
    (h : enumItems spec allowed texts = true) : ∀ t ∈ (negatedItems spec texts).2, t ∈ allowed := by
  cases texts with
  | nil => simp [negatedItems]
  | cons item rest =>
    simp only [enumItems, Bool.and_eq_true, List.contains_iff_mem, List.all_eq_true] at h
    obtain ⟨hfirst, hrest⟩ := h
    have hcons : ∀ t, t ∈ allowed → ∀ u ∈ t :: rest, u ∈ allowed := by
      intro t ht u hu
      rcases List.mem_cons.mp hu with rfl | hu
      · exact ht
      · exact hrest u hu
    rw [negatedItems]
    split
    next cs hflag hcs =>
      rw [hcs] at hfirst
      exact hcons _ (by simpa [hflag] using hfirst)
    next hno =>
      refine hcons item ?_
      split at hfirst
      next cs hcs =>
        split at hfirst
        next hflag => exact absurd hcs (hno cs hflag)
        next => exact hfirst
      next => exact hfirst

theorem boundText_declared (hr : Enumerated r values)
    (hlimit : ∀ n, Value.int n ∈ values → Numeral.fits limit (toString n).toList = true)
    {v : Value} (hv : v ∈ values) : boundText limit r.spec.prepared v.typed = .ok v := by
  rcases hr.kind with ⟨htype, hall⟩ | ⟨htype, hall⟩
  · obtain ⟨s, rfl⟩ := hall v hv
    exact boundText_str (RuleSpec.effectiveBase?_prepared htype) s
  · obtain ⟨n, rfl⟩ := hall v hv
    have hbound := boundText_of_integer limit (RuleSpec.effectiveBase?_prepared htype) hr.noDate
      (spells_toString n)
    exact hbound.trans (if_pos (hlimit n hv))

theorem boundAll_declared
    (hread : ∀ v ∈ values, boundText limit spec v.typed = .ok v) {texts : List String}
    (h : ∀ t ∈ texts, t ∈ values.map Value.typed) :
    ∃ vs, boundAll limit spec texts = .ok vs ∧
      List.Forall₂ (fun t v => v ∈ values ∧ v.typed = t) texts vs := by
  induction texts with
  | nil => exact ⟨[], rfl, .nil⟩
  | cons t texts ih =>
    obtain ⟨v, hv, rfl⟩ := List.mem_map.mp (h t List.mem_cons_self)
    obtain ⟨vs, hvs, hall⟩ := ih fun u hu => h u (List.mem_cons_of_mem _ hu)
    refine ⟨v :: vs, ?_, .cons ⟨hv, rfl⟩ hall⟩
    simp [boundAll, hread v hv, hvs, Except.map]

theorem enumItems_of_run {g : Grammar} {field : String} {data : Table Value} {s : String}
    {enum : Value} (henum : spec.enumValues = some enum) (htruthy : enum.truthy = true)
    (hvalues : enum.elements? = some values) (hdata : data.get? field = some (.str s))
    (hs : s ≠ "") (hok : GrammarCheck.enum.run g field data spec = .ok ()) :
    enumItems spec (values.map Value.typed) (Grammar.listItems spec (.str s)) = true := by
  simp only [GrammarCheck.run, Grammar.checkEnum, informed?_str hdata hs, RuleSpec.hasEnum, henum,
    Option.any_some, htruthy, if_true, Option.getD_some, hvalues] at hok
  cases hitems : enumItems spec (values.map Value.typed) (Grammar.listItems spec (.str s)) with
  | true => rfl
  | false =>
    rw [hitems] at hok
    cases hok

theorem equalityFragment_asList (column : String) (names : ParamNames) {texts bare : List String}
    {negated : Bool} (hitems : negatedItems spec texts = (negated, bare)) {vs : List Value}
    (hvs : boundAll limit spec bare = .ok vs) :
    equalityFragment limit spec column true texts names =
      (.ok ⟨column ++ " " ++ ((if negated then "NOT IN" else "IN") ++ " (" ++ names.name 0 ++ ")"),
        [(names.name 0, .list vs)]⟩, names.advance 1) := by
  have htest : equality limit spec true texts = .ok (.among negated vs) := by
    simp [equality, hitems, hvs, Except.map]
  rw [equalityFragment, htest]
  rfl

theorem Enumerated.flagged (hr : Enumerated r values) :
    Flagged r ∧ r.spec.base? ≠ some .boolean := by
  have htype : ∃ b, r.spec.type = some (.known b) ∧ b ≠ .boolean := by
    rcases hr.kind with ⟨htype, -⟩ | ⟨htype, -⟩
    · exact ⟨_, htype, by decide⟩
    · exact ⟨_, htype, by decide⟩
  obtain ⟨b, htype, hb⟩ := htype
  exact ⟨⟨⟨b, htype⟩, hr.unprepared, hr.noTemplate, hr.noCallback⟩,
    by simpa [RuleSpec.base?, htype, DeclaredType.base?] using hb⟩

theorem build_of_enum (hr : Enumerated r values) (g : Grammar) (column s : String)
    (names : ParamNames) : build limit (r.prepare (some g)) column (.str s) names =
      alone (equalityFragment limit r.spec.prepared column true
        (Grammar.listItems r.spec.prepared (.str s)) names) := by
  obtain ⟨hflagged, hboolean⟩ := hr.flagged
  obtain ⟨enum, henum, htruthy, -⟩ := hr.declared
  have hhas : r.spec.hasEnum = true := by
    rw [RuleSpec.hasEnum, henum]
    exact htruthy
  have hplain : isPlain r.spec.prepared = false := by
    have hprepared : r.spec.prepared.hasEnum = true := hhas
    simp [isPlain, hprepared]
  rw [hflagged.build_prepare hboolean limit (some g) column (items_of_str hplain s)
    (listItems_ne_nil _ s), if_pos hhas]

theorem excludes_eq (r : Rule) (s : String) :
    excludes r s = (flag r.spec.prepared.negationAllowed && negates s) := rfl

theorem listedTexts_eq (hr : Enumerated r values) (s : String) : listedTexts r s =
    Grammar.listItems r.spec.prepared (.str (if excludes r s then bare s else s)) := by
  have hlist : flag r.spec.prepared.listAllowed = r.spec.listAllowed.getD true := by
    rcases hr.kind with ⟨htype, -⟩ | ⟨htype, -⟩
    · simp [RuleSpec.prepared, RuleSpec.base?, htype, DeclaredType.base?, flag]
    · simp [RuleSpec.prepared, RuleSpec.base?, htype, DeclaredType.base?, flag]
  rw [listItems_of_str, hlist]
  rfl

/-- An accepted filter of an enumerated field binds declared values only, one for each text that
    it lists, and a mark in front excludes them where the rule allows negation. -/
theorem enum_filter_binds_declared (g : Grammar) (r : Rule) (values : List Value)
    (hr : Enumerated r values) (field column : String) (data : Table Value) (s : String)
    (hdata : Table.get? data field = some (.str s)) (hs : s ≠ "")
    (hok : GrammarCheck.enum.run g field data (r.prepare (some g)).spec = .ok ())
    (limit : Numeral.DigitLimit)
    (hlimit : ∀ n, Value.int n ∈ values → Numeral.fits limit (toString n).toList = true)
    (names : ParamNames) :
    ∃ vs, build limit (r.prepare (some g)) column (.str s) names =
        (.ok [⟨column ++ " " ++ ((if excludes r s then "NOT IN" else "IN") ++
            " (" ++ names.name 0 ++ ")"), [(names.name 0, .list vs)]⟩], names.advance 1) ∧
      vs ≠ [] ∧ List.Forall₂ (fun t v => v ∈ values ∧ v.typed = t) (listedTexts r s) vs := by
  rw [Rule.prepare_of_unprepared hr.unprepared] at hok
  obtain ⟨enum, henum, htruthy, hvalues⟩ := hr.declared
  have hitems : enumItems r.spec.prepared (values.map Value.typed)
      (Grammar.listItems r.spec.prepared (.str s)) = true :=
    enumItems_of_run henum htruthy hvalues hdata hs hok
  have hlisted := negatedItems_listItems r.spec.prepared s
  rw [← excludes_eq, ← listedTexts_eq hr] at hlisted
  have hdeclared : ∀ t ∈ listedTexts r s, t ∈ values.map Value.typed := by
    have hall := mem_of_enumItems hitems
    rwa [hlisted] at hall
  obtain ⟨vs, hvs, hbound⟩ :=
    boundAll_declared (fun v hv => boundText_declared hr hlimit hv) hdeclared
  have hne : vs ≠ [] := by
    rintro rfl
    rw [listedTexts_eq hr] at hbound
    exact listItems_ne_nil _ _ (List.forall₂_nil_right_iff.mp hbound)
  refine ⟨vs, ?_, hne, hbound⟩
  rw [build_of_enum hr, equalityFragment_asList column names hlisted hvs]
  rfl

def sizeRule : Rule :=
  { spec := { type := some (.known .integer)
              enumValues := some (.list [.int 1, .int (-2), .int 30]) } }

theorem sizeRule_enumerated : Enumerated sizeRule [.int 1, .int (-2), .int 30] where
  unprepared := rfl
  noDate := rfl
  noTemplate := rfl
  noCallback := rfl
  declared := ⟨_, rfl, rfl, rfl⟩
  kind := .inr ⟨rfl, by simp⟩

theorem sizes_excluded :
    GrammarCheck.enum.run {} "size" [("size", .str "!-2,30")] (sizeRule.prepare (some {})).spec =
        .ok () ∧
      ∃ vs, build (some 4300) (sizeRule.prepare (some {})) "t.size" (.str "!-2,30")
          (ParamNames.ofColumn "t.size") =
            (.ok [⟨"t.size NOT IN (:tsize1)", [(":tsize1", .list vs)]⟩], ⟨":tsize", 2⟩) ∧
        vs ≠ [] ∧ List.Forall₂ (fun t v => v ∈ [.int 1, .int (-2), .int 30] ∧ v.typed = t)
          ["-2", "30"] vs := by
  have hok : GrammarCheck.enum.run {} "size" [("size", .str "!-2,30")]
      (sizeRule.prepare (some {})).spec = .ok () := rfl
  have hlimit : ∀ n, Value.int n ∈ [.int 1, .int (-2), .int 30] →
      Numeral.fits (some 4300) (toString n).toList = true := by
    intro n hn
    simp only [List.mem_cons, Value.int.injEq, List.not_mem_nil, or_false] at hn
    rcases hn with rfl | rfl | rfl
    all_goals decide +kernel
  have htexts : listedTexts sizeRule "!-2,30" = ["-2", "30"] := by decide +kernel
  obtain ⟨vs, hbuilt, hne, hall⟩ := enum_filter_binds_declared {} sizeRule _ sizeRule_enumerated
    "size" "t.size" [("size", .str "!-2,30")] "!-2,30" rfl (by decide) hok (some 4300) hlimit
    (ParamNames.ofColumn "t.size")
  rw [htexts] at hall
  exact ⟨hok, vs, hbuilt, hne, hall⟩

end FieldRules.Filter
