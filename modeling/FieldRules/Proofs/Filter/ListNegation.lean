import FieldRules.Proofs.Filter.LikePattern
import FieldRules.Proofs.Filter.Buildable

namespace FieldRules.Filter

/-- A rule whose filters are read as plain texts; `ends` are the ends that may carry a wildcard. -/
structure ReadsTexts (spec : RuleSpec) (ends : Bool × Bool) : Prop where
  base : spec.effectiveBase? = some .string
  noEnum : spec.hasEnum = false
  noDate : flag spec.date = false
  noRange : flag spec.rangeAllowed = false
  noLess : flag spec.lessAllowed = false
  noGreater : flag spec.greaterAllowed = false
  negation : flag spec.negationAllowed = true
  wildcard : wildcardEnds spec.wildcard = .ok ends

def isLike (ends : Bool × Bool) (item : String) : Bool := takesWildcard ends item.toList

def negates (item : String) : Bool := item.toList.head? == some '!'

def bare (item : String) : String :=
  if negates item then String.ofList (item.toList.drop 1) else item

def likeFragments (ends : Bool × Bool) (column : String) : List String → ParamNames → List Fragment
  | [], _ => []
  | item :: rest, names =>
    likeFragment column (names.name 0) (patternOf ends item.toList) ::
      likeFragments ends column rest (names.advance 1)

def textFragment (column p : String) (negated : Bool) : List String → Fragment
  | [s] => ⟨column ++ " " ++ ((if negated then "<>" else "=") ++ " " ++ p), [(p, .str s)]⟩
  | texts => ⟨column ++ " " ++ ((if negated then "NOT IN" else "IN") ++ " (" ++ p ++ ")"),
      [(p, .list (texts.map .str))]⟩

def leftFragments (column p : String) : List String → List Fragment
  | [] => []
  | item :: rest => [textFragment column p (negates item) (bare item :: rest)]

def ledFragments (ends : Bool × Bool) (column p first : String) (others : List String) :
    List Fragment :=
  match (if isLike ends first then [] else [bare first]) ++
      others.filter fun item => !isLike ends item with
  | [] => []
  | texts => [textFragment column p (negates first) texts]

variable {limit : Numeral.DigitLimit} {spec : RuleSpec} {ends : Bool × Bool} {column p : String}

section ReadsTexts

variable (hs : ReadsTexts spec ends)

include hs

theorem comparison?_of_readsTexts (cs : List Char) : Match.comparison? spec cs = none := by
  unfold Match.comparison?
  split <;> simp [Comparator.allowed, hs.noLess, hs.noGreater]

theorem find?_of_readsTexts (cs : List Char) : Match.find? spec false cs =
    .ok (if takesWildcard ends cs then Match.wildcard? ends cs else none) := by
  have hcut : (if flag spec.rangeAllowed then Text.cutAt '|' cs else (cs, none)) = (cs, none) := by
    rw [hs.noRange, if_neg Bool.false_ne_true]
  unfold Match.find?
  rw [hcut]
  simp only [comparison?_of_readsTexts hs, Bool.false_and, Bool.false_eq_true, if_false,
    hs.wildcard, Except.map, takesWildcard, Bool.and_eq_true, decide_eq_true_eq]
  by_cases hlen : 1 < cs.length
  · rw [if_neg (by omega), wildcard?_eq]
    simp [hlen]
  · rw [if_pos (by omega), if_neg fun h => hlen h.1]

theorem boundText_of_readsTexts (s : String) : boundText limit spec s = .ok (.str s) := by
  simp [boundText, hs.noDate, hs.base]

theorem boundAll_of_readsTexts (texts : List String) :
    boundAll limit spec texts = .ok (texts.map .str) := by
  induction texts with
  | nil => rfl
  | cons s texts ih => simp [boundAll, boundText_of_readsTexts hs, ih, Except.map]

theorem operatorFragments_of_readsTexts (column : String) (items : List String)
    (names : ParamNames) : operatorFragments limit spec column false items names =
      (.ok (likeFragments ends column (items.filter (isLike ends)) names,
        items.filter fun item => !isLike ends item),
        names.advance (items.filter (isLike ends)).length) := by
  induction items generalizing names with
  | nil => rfl
  | cons item items ih =>
    rw [operatorFragments, find?_of_readsTexts hs]
    cases htakes : takesWildcard ends item.toList with
    | true =>
      have hlike : isLike ends item = true := htakes
      obtain ⟨m, hm, hdraws, htest⟩ := exists_wildcard htakes
      rw [if_pos rfl, hm]
      simp only [hdraws, htest limit spec, testFragment_like, ih]
      simp [hlike, likeFragments, Except.map, ParamNames.advance, Nat.add_assoc,
        Nat.add_comm 1]
    | false =>
      have hlike : isLike ends item = false := htakes
      simp [hlike, ih, Except.map]

theorem negatedItems_of_readsTexts (item : String) (rest : List String) :
    negatedItems spec (item :: rest) = (negates item, bare item :: rest) := by
  rw [negatedItems, hs.negation]
  cases hcs : item.toList with
  | nil => simp [bare, negates, hcs]
  | cons c cs =>
    by_cases hmark : c = '!'
    · subst hmark
      simp [bare, negates, hcs]
    · simp [bare, negates, hcs, hmark]

theorem equalityFragment_of_readsTexts (column item : String) (rest : List String)
    (names : ParamNames) : equalityFragment limit spec column false (item :: rest) names =
      (.ok (textFragment column (names.name 0) (negates item) (bare item :: rest)),
        names.advance 1) := by
  unfold equalityFragment equality
  rw [negatedItems_of_readsTexts hs]
  cases rest with
  | nil =>
    simp only [boundText_of_readsTexts hs]
    rfl
  | cons other rest =>
    simp only [boundAll_of_readsTexts hs]
    rfl

theorem itemFragments_of_readsTexts (limit : Numeral.DigitLimit) (column : String) {items : List String}
    (hmany : (items.length == 1) = false) (names : ParamNames) :
    ∃ rest, itemFragments limit spec column items names =
      (.ok (likeFragments ends column (items.filter (isLike ends)) names ++
        leftFragments column (names.name (items.filter (isLike ends)).length)
          (items.filter fun item => !isLike ends item)), rest) := by
  unfold itemFragments
  rw [hmany, operatorFragments_of_readsTexts hs]
  cases hleft : items.filter fun item => !isLike ends item with
  | nil =>
    exact ⟨names.advance (items.filter (isLike ends)).length, by simp [leftFragments]⟩
  | cons item left =>
    simp only [equalityFragment_of_readsTexts hs]
    exact ⟨_, rfl⟩

end ReadsTexts

theorem textFragment_injective {negated negated' : Bool} {s s' : String} {rest : List String}
    (h : textFragment column p negated (s :: rest) = textFragment column p negated' (s' :: rest)) :
    negated = negated' ∧ s = s' := by
  cases rest
  all_goals
    obtain ⟨htext, hparams⟩ := Fragment.mk.inj h
    refine ⟨?_, by simpa using hparams⟩
    have hlist := congrArg String.toList htext
    cases negated <;> cases negated' <;> simp_all

theorem bare_eq_iff (item : String) : bare item = item ↔ negates item = false := by
  unfold bare
  cases hmarked : negates item with
  | false => simp
  | true =>
    simp only [negates, beq_iff_eq] at hmarked
    obtain ⟨cs, hcs⟩ := List.head?_eq_some_iff.mp hmarked
    have hne : String.ofList (item.toList.drop 1) ≠ item := by
      intro heq
      have hlist := congrArg (List.length ∘ String.toList) heq
      simp [hcs] at hlist
    simpa using hne

/-- Whether the first item of a list decides its negation: nothing is left for equality, the first
    item is left, or neither it nor the first item left has a mark. -/
def LedByFirst (ends : Bool × Bool) (first : String) (others : List String) : Prop :=
  (∀ item ∈ first :: others, isLike ends item = true) ∨ isLike ends first = false ∨
    negates first = false ∧
      ∀ item, (others.filter fun item => !isLike ends item).head? = some item →
        negates item = false

theorem leftFragments_eq_ledFragments_iff (ends : Bool × Bool) (column p first : String)
    (others : List String) :
    leftFragments column p ((first :: others).filter fun item => !isLike ends item) =
      ledFragments ends column p first others ↔ LedByFirst ends first others := by
  unfold ledFragments LedByFirst
  cases hfirst : isLike ends first with
  | false => simp [hfirst, leftFragments]
  | true =>
    cases hleft : others.filter fun item => !isLike ends item with
    | nil =>
      have hall : ∀ item ∈ others, isLike ends item = true := by simpa using hleft
      have hlikes : ∀ item ∈ first :: others, isLike ends item = true := by
        intro item hitem
        rcases List.mem_cons.mp hitem with rfl | hitem
        · exact hfirst
        · exact hall item hitem
      rw [List.filter_cons_of_neg (by simp [hfirst]), hleft]
      exact iff_of_true rfl (.inl hlikes)
    | cons item left =>
      have hnot : ¬∀ item ∈ others, isLike ends item = true := by
        intro hall
        have hnil : (others.filter fun item => !isLike ends item) = [] := by simpa using hall
        rw [hnil] at hleft
        cases hleft
      have hsame : textFragment column p (negates item) (bare item :: left) =
          textFragment column p (negates first) (item :: left) ↔
            negates first = false ∧ negates item = false := by
        constructor
        · intro h
          obtain ⟨hneg, hbare⟩ := textFragment_injective h
          have hitem := (bare_eq_iff item).mp hbare
          exact ⟨hneg.symm.trans hitem, hitem⟩
        · rintro ⟨hf, hitem⟩
          rw [(bare_eq_iff item).mpr hitem, hf, hitem]
      simp [hfirst, hleft, leftFragments, hnot, hsame]

structure PlainText (r : Rule) : Prop where
  type : r.spec.type = some (.known .string)
  unprepared : r.spec.filterType = none
  noEnum : r.spec.hasEnum = false
  noDate : flag r.spec.date = false
  negation : r.spec.negationAllowed ≠ some false
  noTemplate : Text.nonempty? r.spec.template = none
  noCallback : r.callback = none

theorem PlainText.flagged {r : Rule} (hr : PlainText r) : Flagged r :=
  ⟨⟨_, hr.type⟩, hr.unprepared, hr.noTemplate, hr.noCallback⟩

theorem readsTexts_prepared {r : Rule} (hr : PlainText r)
    (hends : wildcardEnds r.spec.prepared.wildcard = .ok ends) :
    ReadsTexts r.spec.prepared ends := by
  have hplain : r.spec.isPlainString r.spec.type = true := by
    simp [RuleSpec.isPlainString, hr.type, DeclaredType.base?, hr.noEnum, hr.noDate]
  have hordered (b : Option Bool) :
      flag (if r.spec.base? == some .boolean || r.spec.isPlainString r.spec.type then none
        else some (b.getD true)) = false := by
    rw [hplain, Bool.or_true, if_pos rfl]
    rfl
  refine ⟨RuleSpec.effectiveBase?_prepared hr.type, hr.noEnum, hr.noDate, hordered _, hordered _,
    hordered _, ?_, hends⟩
  cases hneg : r.spec.negationAllowed with
  | none => simp [RuleSpec.prepared, hneg, flag]
  | some b =>
    cases b with
    | false => exact absurd hneg hr.negation
    | true => simp [RuleSpec.prepared, hneg, flag]

theorem items_of_isBlank {v : Value} (hblank : v.isBlank = true) {texts : List String}
    (h : items spec v = .ok texts) : texts.length ≤ 1 := by
  have htyped : v.items? = some [] ∨ v.items? = none ∧ (v.typed = "" ∨ v.typed = "None") := by
    cases v with
    | null => exact .inr ⟨rfl, .inr rfl⟩
    | str s => exact .inr ⟨rfl, .inl (eq_of_beq hblank)⟩
    | list vs => exact .inl (by simpa [Value.isBlank, Value.items?] using hblank)
    | _ => cases hblank
  rcases htyped with hnil | ⟨hnone, htyped⟩
  · simp only [items, hnil] at h
    obtain rfl := Except.ok.inj h
    exact Nat.zero_le 1
  · simp only [items, hnone] at h
    split at h
    · obtain rfl := Except.ok.inj h
      exact Nat.le_refl 1
    · have hrow : rowOf "" = .ok [] ∧ rowOf "None" = .ok ["None"] := ⟨rfl, rfl⟩
      have hpieces : Text.pieces "" ',' = [""] ∧ Text.pieces "None" ',' = ["None"] := by
        decide +kernel
      rcases htyped with hempty | hword
      · rw [hempty, hrow.1, hpieces.1] at h
        split at h <;> obtain rfl := Except.ok.inj h
        · exact Nat.zero_le 1
        · exact Nat.le_refl 1
      · rw [hword, hrow.2, hpieces.2] at h
        split at h <;> obtain rfl := Except.ok.inj h <;> exact Nat.le_refl 1

theorem wildcardEnds_of_run {g : Grammar} {field : String} {data : Table Value} {v : Value}
    (hdata : data.get? field = some v) (hinformed : v.isBlank = false)
    (hok : GrammarCheck.string.run g field data spec = .ok ()) :
    ∃ ends, wildcardEnds spec.wildcard = .ok ends := by
  have hvalue : Grammar.informed? data field = some v := by
    simp [Grammar.informed?, hdata, hinformed]
  simp only [GrammarCheck.run, Grammar.checkString, hvalue] at hok
  obtain ⟨ends, hends, -⟩ := Outcome.bind_eq_ok.mp hok
  exact ⟨ends, hends⟩

theorem build_of_plainText (limit : Numeral.DigitLimit) (g : Grammar) {r : Rule} (hr : PlainText r)
    (hends : wildcardEnds r.spec.prepared.wildcard = .ok ends) {v : Value} {first : String}
    {others : List String} (hmany : others ≠ [])
    (hitems : items r.spec.prepared v = .ok (first :: others)) (column : String)
    (names : ParamNames) :
    ∃ rest, build limit (r.prepare (some g)) column v names =
      (.ok (likeFragments ends column ((first :: others).filter (isLike ends)) names ++
        leftFragments column (names.name ((first :: others).filter (isLike ends)).length)
          ((first :: others).filter fun item => !isLike ends item)), rest) := by
  have hs := readsTexts_prepared hr hends
  have hlength : ((first :: others).length == 1) = false := by simpa using hmany
  obtain ⟨rest, hbuilt⟩ := itemFragments_of_readsTexts hs limit column hlength names
  have hboolean : r.spec.base? ≠ some .boolean := by
    simp [RuleSpec.base?, hr.type, DeclaredType.base?]
  refine ⟨rest, ?_⟩
  rw [hr.flagged.build_prepare hboolean limit (some g) column hitems (List.cons_ne_nil _ _) names,
    hr.noEnum, if_neg Bool.false_ne_true]
  exact hbuilt

/-- An accepted list of texts is built into the conditions of its wildcard items and the comparison
    with the items left. The first item of the list decides the negation, and alone loses its mark,
    exactly when nothing is left, the first item is left, or no mark leads the list or what is
    left. -/
theorem first_item_negates_iff (g : Grammar) (r : Rule) (hr : PlainText r)
    (field column : String) (data : Table Value) (v : Value)
    (hdata : Table.get? data field = some v)
    (hok : GrammarCheck.string.run g field data (r.prepare (some g)).spec = .ok ())
    (first : String) (others : List String) (hmany : others ≠ [])
    (hitems : items (r.prepare (some g)).spec v = .ok (first :: others))
    (limit : Numeral.DigitLimit) (names : ParamNames) :
    ∃ ends left rest, wildcardEnds (r.prepare (some g)).spec.wildcard = .ok ends ∧
      build limit (r.prepare (some g)) column v names =
        (.ok (likeFragments ends column ((first :: others).filter (isLike ends)) names ++ left),
          rest) ∧
      (left = ledFragments ends column
          (names.name ((first :: others).filter (isLike ends)).length) first others ↔
        LedByFirst ends first others) := by
  have hspec : (r.prepare (some g)).spec = r.spec.prepared := by
    rw [Rule.prepare_of_unprepared hr.unprepared]
  rw [hspec] at hok hitems ⊢
  have hinformed : v.isBlank = false := by
    cases hblank : v.isBlank with
    | false => rfl
    | true =>
      have hshort := items_of_isBlank hblank hitems
      exact absurd (List.length_eq_zero_iff.mp (Nat.le_zero.mp (Nat.le_of_succ_le_succ hshort)))
        hmany
  obtain ⟨ends, hends⟩ := wildcardEnds_of_run hdata hinformed hok
  obtain ⟨rest, hbuilt⟩ := build_of_plainText limit g hr hends hmany hitems column names
  exact ⟨ends, _, rest, hends, hbuilt,
    leftFragments_eq_ledFragments_iff ends column _ first others⟩

def listedName : Rule := { spec := {} }

def listedNames : ParamNames := ParamNames.ofColumn "t.name"

theorem listedName_plainText : PlainText listedName := ⟨rfl, rfl, rfl, rfl, by decide, rfl, rfl⟩

theorem marked_first_negates :
    GrammarCheck.string.run {} "name" [("name", .str "!a,%b,!c")] listedName.spec.prepared =
        .ok () ∧
      items listedName.spec.prepared (.str "!a,%b,!c") = .ok ["!a", "%b", "!c"] ∧
      ∃ rest, build none (listedName.prepare (some {})) "t.name" (.str "!a,%b,!c") listedNames =
        (.ok [likeFragment "t.name" (listedNames.name 0) ['%', 'b'],
          textFragment "t.name" (listedNames.name 1) true ["a", "!c"]], rest) := by
  have hok : GrammarCheck.string.run {} "name" [("name", .str "!a,%b,!c")]
      listedName.spec.prepared = .ok () := rfl
  have hitems : items listedName.spec.prepared (.str "!a,%b,!c") = .ok ["!a", "%b", "!c"] := rfl
  obtain ⟨ends, left, rest, hends, hbuilt, hiff⟩ := first_item_negates_iff {} listedName
    listedName_plainText "name" "t.name" [("name", .str "!a,%b,!c")] (.str "!a,%b,!c") rfl hok "!a"
    ["%b", "!c"] (by decide) hitems none listedNames
  obtain rfl : (true, true) = ends := Except.ok.inj hends
  have hled : LedByFirst (true, true) "!a" ["%b", "!c"] := .inr (.inl (by decide +kernel))
  rw [hiff.mpr hled] at hbuilt
  exact ⟨hok, hitems, rest, hbuilt⟩

theorem later_mark_negates :
    GrammarCheck.string.run {} "name" [("name", .str "%a,!b")] listedName.spec.prepared = .ok () ∧
      items listedName.spec.prepared (.str "%a,!b") = .ok ["%a", "!b"] ∧
      negates "%a" = false ∧
      ∃ rest, build none (listedName.prepare (some {})) "t.name" (.str "%a,!b") listedNames =
        (.ok [likeFragment "t.name" (listedNames.name 0) ['%', 'a'],
          textFragment "t.name" (listedNames.name 1) true ["b"]], rest) := by
  have hitems : items listedName.spec.prepared (.str "%a,!b") = .ok ["%a", "!b"] := rfl
  obtain ⟨rest, hbuilt⟩ := build_of_plainText none {} listedName_plainText rfl
    (List.cons_ne_nil _ _) hitems "t.name" listedNames
  exact ⟨rfl, hitems, by decide +kernel, rest, hbuilt⟩

end FieldRules.Filter
