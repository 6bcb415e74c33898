import FieldRules.Filter.Prepare
import FieldRules.Proofs.Placeholder.Series
import FieldRules.Proofs.Text.Replacing

namespace FieldRules.Filter

inductive Operands (column : String) : Value → String → String → Prop
  | pair (low high : Value) (rest : List Value) :
      Operands column (.tuple (low :: high :: rest)) low.text high.text
  | text (s : String) : Operands column (.str s) s s
  | column {v : Value} : (∀ items, v ≠ .tuple items) → (∀ s, v ≠ .str s) →
      Operands column v column column

def Avoids (spec : RuleSpec) (operand : Value) : Prop :=
  spec.avoidBetween = some operand ∧ operand.truthy = true

inductive Comparison (spec : RuleSpec) (column : String) : List String → String → String → Prop
  | between (p q : String) : (∀ operand, ¬Avoids spec operand) →
      Comparison spec column [p, q] column ("BETWEEN " ++ p ++ " AND " ++ q)
  | ordered {mark : String} (p : String) : mark ∈ ["<=", ">=", "<", ">", "=", "<>"] →
      Comparison spec column [p] column (mark ++ " " ++ p)
  | among (p : String) : Comparison spec column [p] column ("IN (" ++ p ++ ")")
  | notAmong (p : String) : Comparison spec column [p] column ("NOT IN (" ++ p ++ ")")
  | like (p : String) :
      Comparison spec column [p] ("UPPER(UNACCENT(" ++ column ++ "))")
        ("LIKE UPPER(UNACCENT(" ++ p ++ "))")

inductive Enclosed (spec : RuleSpec) (column : String) : List String → String → Prop
  | around {operand : Value} {low high : String} (p q : String) : Avoids spec operand →
      Operands column operand low high →
        Enclosed spec column [p, q] (p ++ " <= " ++ low ++ " AND " ++ q ++ " >= " ++ high)

inductive Worded (spec : RuleSpec) (column : String) : List String → String → Prop
  | compared {ps : List String} {left right : String} :
      Comparison spec column ps left right → Worded spec column ps (left ++ " " ++ right)
  | enclosed {ps : List String} {s : String} : Enclosed spec column ps s → Worded spec column ps s
  | isTrue : Worded spec column [] (column ++ " = true")
  | isFalse : Worded spec column [] (column ++ " = false")

inductive Templated (spec : RuleSpec) (column template : String) : List String → String → Prop
  | unchanged : ¬"{OPERATION_VALUE}".toList <:+: template.toList →
      ¬"{VALUE}".toList <:+: template.toList → Templated spec column template [] template
  | value {s : String} (p : String) : ¬"{OPERATION_VALUE}".toList <:+: template.toList →
      Text.Replaced "{VALUE}".toList p.toList template.toList s.toList →
        Templated spec column template [p] s
  | operation {ps : List String} {left right s : String} :
      Comparison spec column ps left right →
      Text.Replaced "{OPERATION_VALUE}".toList right.toList template.toList s.toList →
        Templated spec column template ps s
  | enclosed {ps : List String} {s : String} : Enclosed spec column ps s →
      Templated spec column template ps s

variable {limit : Numeral.DigitLimit} {spec : RuleSpec} {column template p q : String} {t : Test}
  {f : Fragment} {n n' : ParamNames} {fs : List Fragment}

theorem operands_of_rangeOperands {operand : Value} {low high : String}
    (h : rangeOperands operand column = .ok (low, high)) : Operands column operand low high := by
  unfold rangeOperands at h
  split at h
  · cases h
    exact .pair _ _ _
  · cases h
  · cases h
    exact .text _
  next _ htuple hstr =>
    cases h
    exact .column (fun items => htuple items) hstr

theorem Test.comparison
    (h : ∀ low high, t = .between low high → ∀ operand, ¬Avoids spec operand) :
    Comparison spec column (Table.names (t.params p q)) (t.leftSide column) (t.rightSide p q) := by
  cases t with
  | between low high => exact .between p q (h low high rfl)
  | compare c v => cases c <;> exact .ordered p (by decide)
  | equal negated v => cases negated <;> exact .ordered p (by decide)
  | among negated vs =>
    cases negated
    · exact .among p
    · exact .notAmong p
  | like pattern => exact .like p

theorem Test.comparison_or_enclosed {op : Operation} (h : t.operation spec column p q = .ok op) :
    (op = .rightSide (t.rightSide p q) ∧
        Comparison spec column (Table.names (t.params p q)) (t.leftSide column)
          (t.rightSide p q)) ∨
      ∃ s, op = .whole s ∧ Enclosed spec column (Table.names (t.params p q)) s := by
  unfold Test.operation at h
  split at h
  next low high operand hoperand =>
    obtain ⟨⟨a, b⟩, hab, rfl⟩ := Outcome.map_eq_ok.mp h
    have havoids : Avoids spec operand := Option.filter_eq_some_iff.mp hoperand
    exact .inr ⟨_, rfl, .around p q havoids (operands_of_rangeOperands hab)⟩
  next hbetween =>
    cases h
    refine .inl ⟨rfl, Test.comparison ?_⟩
    intro low high ht operand havoids
    exact hbetween low high operand ht (Option.filter_eq_some_iff.mpr havoids)

theorem worded_of_fragment (h : t.fragment spec column p q = .ok f) :
    Worded spec column f.names f.expression := by
  obtain ⟨op, hop, rfl⟩ := Outcome.map_eq_ok.mp h
  rcases Test.comparison_or_enclosed hop with ⟨rfl, hcompare⟩ | ⟨s, rfl, henclosed⟩
  · exact .compared hcompare
  · exact .enclosed henclosed

theorem replaced_text (s mark new : String) (h : mark.toList ≠ []) :
    Text.Replaced mark.toList new.toList s.toList (Text.replaced s mark new).toList := by
  rw [Text.replaced, String.toList_ofList]
  exact Text.replaced_replace h s.toList

theorem templated_of_inTemplate (h : t.inTemplate spec template column p q = .ok f) :
    Templated spec column template f.names f.expression := by
  obtain ⟨op, hop, rfl⟩ := Outcome.map_eq_ok.mp h
  rcases Test.comparison_or_enclosed hop with ⟨rfl, hcompare⟩ | ⟨s, rfl, henclosed⟩
  · exact .operation hcompare (replaced_text _ _ _ (by decide))
  · exact .enclosed henclosed

theorem worded_of_testFragment {k : Nat} {test : Except Fault Test}
    (h : testFragment spec column n k test = (.ok f, n')) :
    Worded spec column f.names f.expression := by
  obtain ⟨t, -, ht⟩ := Outcome.bind_eq_ok.mp (Prod.mk.inj h).1
  exact worded_of_fragment ht

theorem worded_of_operatorFragments {single : Bool} {items bucket : List String}
    (h : operatorFragments limit spec column single items n = (.ok (fs, bucket), n')) :
    ∀ f ∈ fs, Worded spec column f.names f.expression := by
  induction items generalizing n fs bucket with
  | nil =>
    cases h
    simp
  | cons item rest ih =>
    rcases operatorFragments_cons h with ⟨left, -, hrest⟩ | ⟨m, g, gs, n₁, -, hg, rfl, hrest⟩
    · exact ih hrest
    · exact List.forall_mem_cons.mpr ⟨worded_of_testFragment hg, ih hrest⟩

theorem worded_of_itemFragments {items : List String}
    (h : itemFragments limit spec column items n = (.ok fs, n')) :
    ∀ f ∈ fs, Worded spec column f.names f.expression := by
  obtain ⟨gs, bucket, n₁, hops, ⟨-, rfl, -⟩ | ⟨-, g, rfl, hg⟩⟩ := itemFragments_eq_ok h
  · exact worded_of_operatorFragments hops
  · intro f hf
    rcases List.mem_append.mp hf with hf | hf
    · exact worded_of_operatorFragments hops f hf
    · obtain rfl := List.mem_singleton.mp hf
      exact worded_of_testFragment hg

theorem templated_of_operation {items : List String}
    (h : (templateOperation limit spec template column items n).1 = .ok f) :
    Templated spec column template f.names f.expression := by
  have hmade {k : Nat} {test : Except Fault Test}
      (hdrawn : (drawn n k fun p q => test.bind (Test.inTemplate spec template column p q)).1 =
        .ok f) : Templated spec column template f.names f.expression := by
    obtain ⟨t, -, ht⟩ := Outcome.bind_eq_ok.mp hdrawn
    exact templated_of_inTemplate ht
  unfold templateOperation at h
  split at h
  · split at h
    · cases h
    · exact hmade h
    · exact hmade h
  · exact hmade h

theorem templated_of_value {items : List String}
    (hno : ¬"{OPERATION_VALUE}".toList <:+: template.toList)
    (h : templateValue limit spec template p items = .ok f) :
    Templated spec column template f.names f.expression := by
  obtain ⟨vs, -, rfl⟩ := Outcome.map_eq_ok.mp h
  split <;> exact .value p hno (replaced_text _ _ _ (by decide))

theorem mem_of_alone {built : Except Fault Fragment × ParamNames}
    (h : alone built = (.ok fs, n')) : ∀ f ∈ fs, built.1 = .ok f := by
  obtain ⟨g, hg, rfl⟩ := Outcome.map_eq_ok.mp (Prod.mk.inj h).1
  intro f hf
  rwa [List.mem_singleton.mp hf]

theorem templated_of_templateFragments {items : List String}
    (h : templateFragments limit spec template column items n = (.ok fs, n')) :
    ∀ f ∈ fs, Templated spec column template f.names f.expression := by
  unfold templateFragments at h
  split at h
  · intro f hf
    exact templated_of_operation (mem_of_alone h f hf)
  next hoperation =>
    have hoperation : ¬"{OPERATION_VALUE}".toList <:+: template.toList :=
      fun hin => hoperation (Text.hasMark_iff.mpr hin)
    split at h
    · intro f hf
      exact templated_of_value hoperation (mem_of_alone h f hf)
    next hvalue =>
      cases h
      intro f hf
      obtain rfl := List.mem_singleton.mp hf
      exact .unchanged hoperation fun hin => hvalue (Text.hasMark_iff.mpr hin)

def Phrased (spec : RuleSpec) (column : String) (ps : List String) (s : String) : Prop :=
  match Text.nonempty? spec.template with
  | none => Worded spec column ps s
  | some template => Templated spec column template ps s

theorem phrased_of_build {r : Rule} (hr : r.callback = none) {v : Value}
    (h : build limit r column v n = (.ok fs, n')) :
    ∀ f ∈ fs, Phrased r.spec column f.names f.expression := by
  unfold Phrased
  unfold build at h
  split at h
  next hliteral =>
    -- a truth value is written out, so nothing is drawn for it
    have hnone : Text.nonempty? r.spec.template = none := by
      simp only [isLiteral, Bool.and_eq_true, Option.isNone_iff_eq_none] at hliteral
      exact hliteral.1.2
    cases h
    intro f hf
    obtain rfl := List.mem_singleton.mp hf
    rw [hnone]
    dsimp only
    rw [String.append_assoc]
    split
    · exact .isTrue
    · exact .isFalse
  · split at h
    · cases h
    · cases h
      simp
    · simp only [ruleFragments, hr] at h
      split at h
      · contradiction
      next template _ htemplate =>
        rw [htemplate]
        exact templated_of_templateFragments h
      next htemplate =>
        rw [htemplate]
        split at h
        · intro f hf
          exact worded_of_testFragment (Prod.ext (mem_of_alone h f hf) rfl)
        · exact worded_of_itemFragments h

theorem Draws.nodup (h : Draws n n' fs) : (placeholders fs).Nodup := by
  obtain ⟨k, -, hfs⟩ := h
  rw [hfs]
  exact n.nodup_take k

theorem Draws.not_mem_of_earlier (h : Draws n n' fs) {earlier : ParamNames} {j : Nat}
    (hn : earlier.advance j = n) : ∀ p ∈ earlier.take j, p ∉ placeholders fs := by
  obtain ⟨k, -, hfs⟩ := h
  subst hn
  rw [hfs]
  intro p hp hdrawn
  have hall := earlier.nodup_take (j + k)
  rw [ParamNames.take_add] at hall
  exact (List.nodup_append.mp hall).2.2 p hp p hdrawn rfl

/-- The conditions of a value have the wording that the rule gives them, over names that were never
    drawn before and that each fragment binds as its own. -/
theorem build_phrased (limit : Numeral.DigitLimit) (r : Rule) (hr : r.callback = none)
    (column : String) (v : Value) (before after : ParamNames) (fs : List Fragment)
    (h : build limit r column v before = (.ok fs, after)) :
    (∀ f ∈ fs, Phrased r.spec column f.names f.expression) ∧
      (∃ k, after = before.advance k ∧ placeholders fs = before.take k) ∧
      (placeholders fs).Nodup ∧
      ∀ earlier j, ParamNames.advance earlier j = before →
        ∀ p ∈ earlier.take j, p ∉ placeholders fs := by
  have hdraws : Draws before after fs := draws_build hr h
  refine ⟨phrased_of_build hr h, hdraws, hdraws.nodup, ?_⟩
  intro earlier j hbefore
  exact hdraws.not_mem_of_earlier hbefore

def nameRule : Rule := { spec := {} }

def hostileText : String := "x,%'; DROP TABLE t --"

theorem hostile_text_phrased : nameRule.callback = none ∧
    ∃ fs after, build none (nameRule.prepare (some {})) "t.name" (.str hostileText) ⟨":tname", 4⟩ =
        (.ok fs, after) ∧
      fs.map Fragment.expression =
        ["UPPER(UNACCENT(t.name)) LIKE UPPER(UNACCENT(:tname4))", "t.name = :tname5"] ∧
      (∀ f ∈ fs, Phrased (nameRule.prepare (some {})).spec "t.name" f.names f.expression) ∧
      ":tname3" ∉ placeholders fs := by
  have hread : (build none (nameRule.prepare (some {})) "t.name" (.str hostileText)
      ⟨":tname", 4⟩).1.toOption.map (List.map Fragment.expression) = some
        ["UPPER(UNACCENT(t.name)) LIKE UPPER(UNACCENT(:tname4))", "t.name = :tname5"] := by
    decide +kernel
  cases hb : build none (nameRule.prepare (some {})) "t.name" (.str hostileText) ⟨":tname", 4⟩ with
  | mk result after =>
    rw [hb] at hread
    cases result with
    | error e => cases hread
    | ok fs =>
      obtain ⟨hphrased, -, -, hearlier⟩ := build_phrased none (nameRule.prepare (some {})) rfl
        "t.name" (.str hostileText) ⟨":tname", 4⟩ after fs hb
      exact ⟨rfl, fs, after, rfl, Option.some.inj hread, hphrased,
        hearlier ⟨":tname", 1⟩ 3 rfl ":tname3" (by decide)⟩

end FieldRules.Filter
