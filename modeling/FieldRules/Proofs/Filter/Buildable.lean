import FieldRules.Filter.Compile
import FieldRules.Fault
import FieldRules.Proofs.Rule.Prepared

namespace FieldRules.Filter

variable {spec : RuleSpec}

theorem boundText_total (spec : RuleSpec) (s : String) : ∃ v, boundText none spec s = .ok v := by
  unfold boundText
  split
  · exact ⟨_, rfl⟩
  · split
    · split
      · exact ⟨.int (Numeral.intOf s.toList), by simp [Numeral.readInt, Numeral.fits, Except.map]⟩
      · exact ⟨_, rfl⟩
    · split <;> exact ⟨_, rfl⟩
    · exact ⟨_, rfl⟩

theorem boundAll_total (spec : RuleSpec) (items : List String) :
    ∃ vs, boundAll none spec items = .ok vs := by
  induction items with
  | nil => exact ⟨[], rfl⟩
  | cons s items ih =>
    obtain ⟨v, hv⟩ := boundText_total spec s
    obtain ⟨vs, hvs⟩ := ih
    exact ⟨v :: vs, by simp [boundAll, hv, hvs, Except.map]⟩

theorem length_of_boundAll {limit : Numeral.DigitLimit} {texts : List String} {vs : List Value}
    (h : boundAll limit spec texts = .ok vs) : vs.length = texts.length := by
  induction texts generalizing vs with
  | nil =>
    cases h
    rfl
  | cons s texts ih =>
    rw [boundAll] at h
    split at h
    · cases h
    · obtain ⟨vs', hvs', rfl⟩ := Outcome.map_eq_ok.mp h
      rw [List.length_cons, List.length_cons, ih hvs']

theorem equality_total (spec : RuleSpec) (asList : Bool) (items : List String) :
    ∃ t, equality none spec asList items = .ok t := by
  unfold equality
  split
  next negated bare _ =>
    split
    next s _ =>
      obtain ⟨v, hv⟩ := boundText_total spec s
      exact ⟨.equal negated v, by rw [hv]; rfl⟩
    next =>
      obtain ⟨vs, hvs⟩ := boundAll_total spec bare
      exact ⟨.among negated vs, by rw [hvs]; rfl⟩

theorem Match.test_total (spec : RuleSpec) (m : Match) : ∃ t, m.test none spec = .ok t := by
  cases m with
  | range low high =>
    obtain ⟨a, ha⟩ := boundText_total spec (String.ofList low)
    obtain ⟨b, hb⟩ := boundText_total spec (String.ofList high)
    exact ⟨.between a b, by simp [Match.test, ha, hb]⟩
  | compare c cs =>
    obtain ⟨v, hv⟩ := boundText_total spec (String.ofList cs)
    exact ⟨.compare c v, by simp [Match.test, hv, Except.map]⟩
  | negation cs =>
    obtain ⟨v, hv⟩ := boundText_total spec (String.ofList cs)
    exact ⟨.equal true v, by simp [Match.test, hv, Except.map]⟩
  | wildcard front back text => exact ⟨_, rfl⟩

structure Operable (spec : RuleSpec) : Prop where
  ends : ∃ ends, wildcardEnds spec.wildcard = .ok ends
  operands : ∀ v, spec.avoidBetween ≠ some (.tuple [v])

theorem Operable.find? (hs : Operable spec) (single : Bool) (cs : List Char) :
    ∃ m, Match.find? spec single cs = .ok m := by
  obtain ⟨ends, hends⟩ := hs.ends
  unfold Match.find?
  split
  · exact ⟨_, rfl⟩
  · split
    · exact ⟨_, rfl⟩
    · split
      · exact ⟨_, rfl⟩
      · split
        · exact ⟨_, rfl⟩
        · exact ⟨Match.wildcard? ends cs, by rw [hends]; rfl⟩

theorem rangeOperands_total {operand : Value} (h : ∀ v, operand ≠ .tuple [v])
    (htrue : operand.truthy = true) (column : String) :
    ∃ pair, rangeOperands operand column = .ok pair := by
  unfold rangeOperands
  split
  · exact ⟨_, rfl⟩
  next items hpair =>
    cases items with
    | nil => cases htrue
    | cons v items =>
      cases items with
      | nil => exact absurd rfl (h v)
      | cons w items => exact absurd rfl (hpair v w items)
  · exact ⟨_, rfl⟩
  · exact ⟨_, rfl⟩

theorem Operable.operation (hs : Operable spec) (column p q : String) (t : Test) :
    ∃ op, t.operation spec column p q = .ok op := by
  unfold Test.operation
  split
  next operand ho =>
    obtain ⟨hmem, htrue⟩ := Option.filter_eq_some_iff.mp ho
    have hne : ∀ v, operand ≠ .tuple [v] := fun v he => hs.operands v (he ▸ hmem)
    obtain ⟨pair, hpair⟩ := rangeOperands_total hne htrue column
    exact ⟨_, by rw [hpair]; rfl⟩
  · exact ⟨_, rfl⟩

theorem Operable.testFragment (hs : Operable spec) (column : String) (names : ParamNames)
    (draws : Nat) (t : Test) :
    ∃ f rest, testFragment spec column names draws (.ok t) = (.ok f, rest) := by
  obtain ⟨op, hop⟩ := hs.operation column (names.name 0) (names.name 1) t
  simp only [Filter.testFragment, drawn, Except.bind, Test.fragment, hop, Except.map]
  exact ⟨_, _, rfl⟩

theorem Operable.operatorFragments (hs : Operable spec) (column : String) (single : Bool)
    (items : List String) (names : ParamNames) :
    ∃ result rest, operatorFragments none spec column single items names = (.ok result, rest) := by
  induction items generalizing names with
  | nil => exact ⟨_, _, rfl⟩
  | cons item items ih =>
    obtain ⟨m, hm⟩ := hs.find? single item.toList
    cases m with
    | none =>
      obtain ⟨result, rest, hresult⟩ := ih names
      simp only [Filter.operatorFragments, hm, hresult, Except.map]
      exact ⟨_, _, rfl⟩
    | some m =>
      obtain ⟨t, ht⟩ := m.test_total spec
      obtain ⟨f, names', hf⟩ := hs.testFragment column names m.draws t
      obtain ⟨result, rest, hresult⟩ := ih names'
      simp only [Filter.operatorFragments, hm, ht, hf, hresult, Except.map]
      exact ⟨_, _, rfl⟩

theorem Operable.equalityFragment (hs : Operable spec) (column : String) (asList : Bool)
    (items : List String) (names : ParamNames) :
    ∃ f rest, equalityFragment none spec column asList items names = (.ok f, rest) := by
  obtain ⟨t, ht⟩ := equality_total spec asList items
  rw [Filter.equalityFragment, ht]
  exact hs.testFragment column names 1 t

theorem Operable.itemFragments (hs : Operable spec) (column : String) (items : List String)
    (names : ParamNames) :
    ∃ fs rest, itemFragments none spec column items names = (.ok fs, rest) := by
  obtain ⟨⟨fs, bucket⟩, names', hops⟩ :=
    hs.operatorFragments column (items.length == 1) items names
  cases bucket with
  | nil =>
    simp only [Filter.itemFragments, hops]
    exact ⟨_, _, rfl⟩
  | cons item bucket =>
    obtain ⟨f, rest, hf⟩ := hs.equalityFragment column false (item :: bucket) names'
    simp only [Filter.itemFragments, hops, hf, Except.map]
    exact ⟨_, _, rfl⟩

theorem build_total {r : Rule} (htemplate : Text.nonempty? r.spec.template = none)
    (hcallback : r.callback = none) (hs : Operable r.spec) {v : Value} {texts : List String}
    (hitems : items r.spec v = .ok texts) (column : String) (names : ParamNames) :
    ∃ fs rest, build none r column v names = (.ok fs, rest) := by
  unfold build
  split
  · exact ⟨_, _, rfl⟩
  · rw [hitems]
    split
    · contradiction
    · exact ⟨_, _, rfl⟩
    next texts _ hok =>
      obtain rfl := Except.ok.inj hok
      simp only [ruleFragments, htemplate, hcallback]
      split
      · obtain ⟨f, rest, hf⟩ := hs.equalityFragment column true texts names
        exact ⟨[f], rest, by simp [alone, hf, Except.map]⟩
      · exact hs.itemFragments column _ names

structure Flagged (r : Rule) : Prop where
  type : ∃ b, r.spec.type = some (.known b)
  unprepared : r.spec.filterType = none
  noTemplate : Text.nonempty? r.spec.template = none
  noCallback : r.callback = none

theorem Flagged.isLiteral_prepare {r : Rule} (hr : Flagged r) (g : Option Grammar) :
    isLiteral (r.prepare g) = (r.spec.base? == some .boolean) := by
  obtain ⟨b, hb⟩ := hr.type
  have htemplate : Text.nonempty? r.spec.prepared.template = none := hr.noTemplate
  simp [isLiteral, Rule.prepare_of_unprepared hr.unprepared, RuleSpec.effectiveBase?_prepared hb,
    htemplate, hr.noCallback, RuleSpec.base?, hb, DeclaredType.base?]

theorem Flagged.build_prepare {r : Rule} (hr : Flagged r) (hboolean : r.spec.base? ≠ some .boolean)
    (limit : Numeral.DigitLimit) (g : Option Grammar) (column : String) {v : Value}
    {texts : List String} (hitems : items r.spec.prepared v = .ok texts) (hne : texts ≠ [])
    (names : ParamNames) : build limit (r.prepare g) column v names =
      if r.spec.hasEnum then alone (equalityFragment limit r.spec.prepared column true texts names)
      else itemFragments limit r.spec.prepared column texts names := by
  obtain ⟨item, rest, rfl⟩ := List.exists_cons_of_ne_nil hne
  have htemplate : Text.nonempty? r.spec.prepared.template = none := hr.noTemplate
  have hliteral : isLiteral (r.prepare g) = false := by
    rw [hr.isLiteral_prepare]
    simpa using hboolean
  rw [build, hliteral, if_neg Bool.false_ne_true, Rule.prepare_of_unprepared hr.unprepared, hitems]
  simp only [ruleFragments, hr.noCallback, htemplate]
  rfl

theorem build_literal_total {r : Rule} (h : isLiteral r = true) (column : String) (v : Value)
    (names : ParamNames) : ∃ fs rest, build none r column v names = (.ok fs, rest) := by
  rw [build, if_pos h]
  exact ⟨_, _, rfl⟩

theorem compileFrom_total {rules : RuleMap} (defaultAlias : String) {data : Table Value}
    (h : ∀ e ∈ data, ∀ r, filterRule? rules e.1 e.2 = some r → ∀ column names,
      ∃ fs rest, build none r column e.2 names = (.ok fs, rest)) (series : Table ParamNames) :
    ∃ conditions, compileFrom none rules defaultAlias data series = .ok conditions := by
  induction data generalizing series with
  | nil => exact ⟨[], rfl⟩
  | cons e data ih =>
    obtain ⟨name, v⟩ := e
    have htail : ∀ e ∈ data, ∀ r, filterRule? rules e.1 e.2 = some r → ∀ column names,
        ∃ fs rest, build none r column e.2 names = (.ok fs, rest) :=
      fun e he => h e (List.mem_cons_of_mem _ he)
    rw [compileFrom]
    split
    · exact ih htail series
    next r hr =>
      dsimp only
      obtain ⟨fs, rest, hfs⟩ := h (name, v) List.mem_cons_self r hr
        (columnOf name r.spec defaultAlias)
        ((Table.get? series (ParamNames.baseOf (columnOf name r.spec defaultAlias))).getD
          (ParamNames.ofColumn (columnOf name r.spec defaultAlias)))
      rw [hfs]
      dsimp only
      obtain ⟨others, hothers⟩ := ih htail
        (series.put (ParamNames.baseOf (columnOf name r.spec defaultAlias)) rest)
      rw [hothers]
      split
      · exact ⟨_, rfl⟩
      · exact ⟨_, rfl⟩

end FieldRules.Filter
