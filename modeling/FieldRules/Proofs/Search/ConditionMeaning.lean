import FieldRules.Proofs.Condition.Reading
import FieldRules.Proofs.Condition.TreeMeaning
import FieldRules.Proofs.Filter.Wording
import FieldRules.Proofs.Placeholder.Overlap
import FieldRules.Proofs.Search.Compilable

namespace FieldRules

open Text (Unbracketed)

theorem ParamNames.unbracketed_baseOf (column : String) : Unbracketed (baseOf column) := by
  have hcolon : Unbracketed ":" := by
    intro c hc
    obtain rfl : c = ':' := by simpa using hc
    decide
  refine hcolon.append ?_
  intro c hc
  rw [String.toList_ofList] at hc
  have hword : Text.isPlainWord c = true := (List.mem_filter.mp hc).2
  constructor
  · rintro rfl
    exact absurd hword (by decide)
  · rintro rfl
    exact absurd hword (by decide)

theorem ParamNames.unbracketed_name {names : ParamNames} (h : Unbracketed names.base) (i : Nat) :
    Unbracketed (names.name i) := by
  refine h.append ?_
  intro c hc
  have hdigit : Text.isDigit c = true := Numeral.isDigit_of_mem_toDigits (by simpa using hc)
  constructor
  · rintro rfl
    exact absurd hdigit (by decide)
  · rintro rfl
    exact absurd hdigit (by decide)

namespace Filter

variable {limit : Numeral.DigitLimit} {spec : RuleSpec} {column template : String}
  {before after : ParamNames} {fs : List Fragment} {ps : List String} {left right s : String}

structure BalancedTexts (spec : RuleSpec) (written : String) : Prop where
  column : Text.Balanced written
  template : ∀ text, Text.nonempty? spec.template = some text → Text.Balanced text
  operands : ∀ operand low high, Avoids spec operand → Operands written operand low high →
    Text.Balanced low ∧ Text.Balanced high

theorem Draws.unbracketed (h : Draws before after fs) (hbase : Unbracketed before.base) :
    ∀ f ∈ fs, ∀ p ∈ f.names, Unbracketed p := by
  obtain ⟨k, -, hfs⟩ := h
  intro f hf p hp
  have hdrawn : p ∈ before.take k := by
    rw [← hfs]
    exact List.mem_flatMap.mpr ⟨f, hf, hp⟩
  obtain ⟨i, -, rfl⟩ := ParamNames.mem_take.mp hdrawn
  exact ParamNames.unbracketed_name hbase i

theorem balanced_of_comparison (hcolumn : Text.Balanced column) (hps : ∀ p ∈ ps, Text.Balanced p)
    (h : Comparison spec column ps left right) : Text.Balanced left ∧ Text.Balanced right := by
  cases h with
  | between p q _ =>
    have hp : Text.Balanced p := hps p (by simp)
    have hq : Text.Balanced q := hps q (by simp)
    have hbetween : Text.Balanced "BETWEEN " := by decide
    have hand : Text.Balanced " AND " := by decide
    exact ⟨hcolumn, ((hbetween.append hp).append hand).append hq⟩
  | ordered p hmark =>
    have hp : Text.Balanced p := hps p (by simp)
    have hmarks : ∀ mark ∈ ["<=", ">=", "<", ">", "=", "<>"], Text.Balanced (mark ++ " ") := by
      decide
    exact ⟨hcolumn, (hmarks _ hmark).append hp⟩
  | among p => exact ⟨hcolumn, .within 1 (by decide) (hps p (by simp)) (by decide)⟩
  | notAmong p => exact ⟨hcolumn, .within 1 (by decide) (hps p (by simp)) (by decide)⟩
  | like p =>
    exact ⟨.within 2 (by decide) hcolumn (by decide),
      .within 2 (by decide) (hps p (by simp)) (by decide)⟩

theorem balanced_of_enclosed (htexts : BalancedTexts spec column) (hps : ∀ p ∈ ps, Text.Balanced p)
    (h : Enclosed spec column ps s) : Text.Balanced s := by
  obtain ⟨p, q, havoids, hoperands⟩ := h
  obtain ⟨hlow, hhigh⟩ := htexts.operands _ _ _ havoids hoperands
  have hp : Text.Balanced p := hps p (by simp)
  have hq : Text.Balanced q := hps q (by simp)
  have hatMost : Text.Balanced " <= " := by decide
  have hand : Text.Balanced " AND " := by decide
  have hatLeast : Text.Balanced " >= " := by decide
  exact (((((hp.append hatMost).append hlow).append hand).append hq).append hatLeast).append hhigh

theorem balanced_of_worded (htexts : BalancedTexts spec column) (hps : ∀ p ∈ ps, Text.Balanced p)
    (h : Worded spec column ps s) : Text.Balanced s := by
  cases h with
  | compared hcompare =>
    obtain ⟨hleft, hright⟩ := balanced_of_comparison htexts.column hps hcompare
    have hspace : Text.Balanced " " := by decide
    exact (hleft.append hspace).append hright
  | enclosed henclosed => exact balanced_of_enclosed htexts hps henclosed
  | isTrue => exact htexts.column.append (by decide)
  | isFalse => exact htexts.column.append (by decide)

theorem balanced_of_templated (htexts : BalancedTexts spec column)
    (htemplate : Text.Balanced template) (hps : ∀ p ∈ ps, Text.Balanced p)
    (h : Templated spec column template ps s) : Text.Balanced s := by
  cases h with
  | unchanged => exact htemplate
  | value p _ hreplaced => exact htemplate.replaced (by decide) (hps p (by simp)) hreplaced
  | operation hcompare hreplaced =>
    obtain ⟨-, hright⟩ := balanced_of_comparison htexts.column hps hcompare
    exact htemplate.replaced (by decide) hright hreplaced
  | enclosed henclosed => exact balanced_of_enclosed htexts hps henclosed

theorem balanced_of_phrased (htexts : BalancedTexts spec column) (hps : ∀ p ∈ ps, Text.Balanced p)
    (h : Phrased spec column ps s) : Text.Balanced s := by
  unfold Phrased at h
  split at h
  · exact balanced_of_worded htexts hps h
  next template htemplate =>
    exact balanced_of_templated htexts (htexts.template template htemplate) hps h

theorem balanced_of_build {r : Rule} (hr : r.callback = none) (htexts : BalancedTexts r.spec column)
    (hbase : Unbracketed before.base) {v : Value}
    (h : build limit r column v before = (.ok fs, after)) :
    ∀ f ∈ fs, Text.Balanced f.expression := by
  intro f hf
  have hnames : ∀ p ∈ f.names, Text.Balanced p := by
    intro p hp
    exact ((draws_build hr h).unbracketed hbase f hf p hp).balanced
  exact balanced_of_phrased htexts hnames (phrased_of_build hr h f hf)

variable {rules : RuleMap} {defaultAlias : String}

def BalancedRules (rules : RuleMap) (defaultAlias : String) : Prop :=
  ∀ e ∈ rules, e.2.callback = none ∧ BalancedTexts e.2.spec (columnOf e.1 e.2.spec defaultAlias)

theorem balanced_of_compileFrom (hrules : BalancedRules rules defaultAlias) {data : Table Value}
    {series : Table ParamNames} {conditions : List (String × List Fragment)}
    (hseries : ∀ base names, series.get? base = some names → Unbracketed names.base)
    (h : compileFrom limit rules defaultAlias data series = .ok conditions) :
    ∀ e ∈ conditions, e.2 ≠ [] ∧ ∀ f ∈ e.2, Text.Balanced f.expression := by
  induction data generalizing series conditions with
  | nil =>
    cases h
    simp
  | cons e data ih =>
    obtain ⟨name, v⟩ := e
    simp only [compileFrom] at h
    split at h
    · exact ih hseries h
    next r hr =>
      obtain ⟨hcall, htexts⟩ :=
        hrules (name, r) (Table.mem_of_get?_eq_some (filterRule?_eq_some hr))
      split at h
      · cases h
      next fs names hbuild =>
        have hbase : Unbracketed ((series.get? (ParamNames.baseOf (columnOf name r.spec
            defaultAlias))).getD (ParamNames.ofColumn (columnOf name r.spec defaultAlias))).base := by
          cases hget : series.get? (ParamNames.baseOf (columnOf name r.spec defaultAlias)) with
          | none => exact ParamNames.unbracketed_baseOf _
          | some names => exact hseries _ names hget
        have hfs : ∀ f ∈ fs, Text.Balanced f.expression :=
          balanced_of_build hcall htexts hbase hbuild
        -- a field leaves the base of its series as it found it
        have hput : ∀ base others, (series.put (ParamNames.baseOf (columnOf name r.spec
            defaultAlias)) names).get? base = some others → Unbracketed others.base := by
          intro base others hget
          rw [Table.get?_put] at hget
          split at hget
          · cases hget
            obtain ⟨k, hadvance, -⟩ := draws_build hcall hbuild
            rw [hadvance]
            exact hbase
          · exact hseries base others hget
        split at h
        · exact ih hput h
        next hempty =>
          obtain ⟨others, hothers, rfl⟩ := Outcome.map_eq_ok.mp h
          have hne : fs ≠ [] := fun hnil => hempty (List.isEmpty_iff.mpr hnil)
          exact List.forall_mem_cons.mpr ⟨⟨hne, hfs⟩, ih hput hothers⟩

theorem balanced_of_compile (hrules : BalancedRules rules defaultAlias) {data : Table Value}
    {c : Compiled} (h : compile limit data rules defaultAlias = .ok c) :
    ∀ e ∈ c.conditions, e.2 ≠ [] ∧ ∀ f ∈ e.2, Text.Balanced f.expression := by
  obtain ⟨conditions, hconditions, rfl⟩ := Outcome.map_eq_ok.mp h
  exact balanced_of_compileFrom hrules (by simp [Table.get?]) hconditions

end Filter

variable {E : String → Bool}

namespace Tree

theorem opens?_numbered (mark : String) (i : Nat) : opens? (mark ++ toString i) = opens? mark := by
  rw [← connective?_eq_opens?, ← connective?_eq_opens?, connective?_numbered]

theorem itemTruths_fragments (fs : List Fragment) :
    itemTruths E (fs.map .fragment) = fs.map fun f => E f.expression := by
  induction fs with
  | nil => rfl
  | cons f fs ih =>
    rw [List.map_cons, itemTruths, ih]
    rfl

theorem allSound_fragments {fs : List Fragment} (h : ∀ f ∈ fs, Text.Balanced f.expression) :
    AllSound (fs.map .fragment) := by
  induction fs with
  | nil => trivial
  | cons f fs ih =>
    have hf : Text.Balanced f.expression := h f List.mem_cons_self
    have hfs : ∀ f ∈ fs, Text.Balanced f.expression := fun g hg => h g (List.mem_cons_of_mem _ hg)
    exact ⟨hf, ih hfs⟩

theorem namedTruths_append (es fs : List (String × Tree)) :
    namedTruths E (es ++ fs) = namedTruths E es ++ namedTruths E fs := by
  induction es with
  | nil => rfl
  | cons e es ih =>
    obtain ⟨name, t⟩ := e
    rw [List.cons_append, namedTruths, ih, namedTruths, List.append_assoc]

theorem namedSound_append {es fs : List (String × Tree)} (hes : NamedSound es)
    (hfs : NamedSound fs) : NamedSound (es ++ fs) := by
  induction es with
  | nil => exact hfs
  | cons e es ih =>
    obtain ⟨name, t⟩ := e
    exact ⟨hes.1, ih hes.2⟩

end Tree

namespace Filter.Compiled

def fieldTruths (E : String → Bool) (conditions : List (String × List Fragment)) : List Bool :=
  conditions.map fun e => e.2.any fun f => E f.expression

theorem truth?_entry (i : Nat) {fs : List Fragment} (hne : fs ≠ []) :
    (entry i fs).2.truth? E ((Tree.opens? (entry i fs).1).getD .and) =
      some (fs.any fun f => E f.expression) := by
  unfold entry
  split
  next f => simp [Tree.truth?]
  next =>
    obtain ⟨f, rest, rfl⟩ := List.exists_cons_of_ne_nil hne
    have hor : Tree.opens? ("OR" ++ toString i) = some .or :=
      (Tree.opens?_numbered "OR" i).trans (by decide)
    rw [hor, Option.getD_some, Tree.truth?, Tree.itemTruths_fragments]
    refine Connective.combine?_eq_some_iff.mpr ⟨List.cons_ne_nil _ _, ?_⟩
    rw [Connective.combine, List.any_map]
    rfl

theorem namedTruths_entriesFrom {conditions : List (String × List Fragment)}
    (h : ∀ e ∈ conditions, e.2 ≠ []) (i : Nat) :
    Tree.namedTruths E (entriesFrom i conditions) = fieldTruths E conditions := by
  induction conditions generalizing i with
  | nil => rfl
  | cons e conditions ih =>
    have hhead : e.2 ≠ [] := h e List.mem_cons_self
    have htail : ∀ e ∈ conditions, e.2 ≠ [] := fun e he => h e (List.mem_cons_of_mem _ he)
    rw [entriesFrom, Tree.namedTruths, truth?_entry i hhead, ih htail]
    rfl

theorem sound_entry (i : Nat) {fs : List Fragment} (h : ∀ f ∈ fs, Text.Balanced f.expression) :
    (entry i fs).2.Sound ∧ ((Tree.opens? (entry i fs).1).isSome = true →
      (entry i fs).2.IsGroup ∨ (entry i fs).2.truthy = false) := by
  unfold entry
  split
  next f =>
    -- a fragment alone stands under a bare number, which opens no group
    have hnone : Tree.opens? (toString i) = none := by
      have := Tree.opens?_numbered "" i
      rw [String.empty_append] at this
      exact this.trans (by decide)
    refine ⟨h f List.mem_cons_self, ?_⟩
    intro hopens
    rw [hnone] at hopens
    cases hopens
  next => exact ⟨Tree.allSound_fragments h, fun _ => .inl trivial⟩

theorem namedSound_entriesFrom {conditions : List (String × List Fragment)}
    (h : ∀ e ∈ conditions, ∀ f ∈ e.2, Text.Balanced f.expression) (i : Nat) :
    Tree.NamedSound (entriesFrom i conditions) := by
  induction conditions generalizing i with
  | nil => trivial
  | cons e conditions ih =>
    have htail : ∀ e ∈ conditions, ∀ f ∈ e.2, Text.Balanced f.expression :=
      fun e he => h e (List.mem_cons_of_mem _ he)
    exact ⟨sound_entry i (h e List.mem_cons_self), ih htail (i + 1)⟩

theorem name_entry (i : Nat) (fs : List Fragment) :
    ∃ mark ∈ ["", "OR"], (entry i fs).1 = mark ++ toString i := by
  unfold entry
  split
  · exact ⟨"", by simp, (String.empty_append).symm⟩
  · exact ⟨"OR", by simp, rfl⟩

theorem mark_injective {mark mark' : String} {i j : Nat} (h : mark ∈ ["", "OR", "AND"])
    (h' : mark' ∈ ["", "OR", "AND"]) (heq : mark ++ toString i = mark' ++ toString j) : i = j := by
  have hstable : ∀ m ∈ ["", "OR", "AND"], Text.trimEnd Text.isDigit m.toList = m.toList := by
    decide
  have hlists : mark.toList ++ Nat.toDigits 10 i = mark'.toList ++ Nat.toDigits 10 j := by
    rw [← ParamNames.toList_numbered, ← ParamNames.toList_numbered, heq]
  have hmarks : mark.toList = mark'.toList := by
    have htrimmed := congrArg (Text.trimEnd Text.isDigit) hlists
    rwa [Text.trimEnd_append _ fun d hd => Numeral.isDigit_of_mem_toDigits hd,
      Text.trimEnd_append _ fun d hd => Numeral.isDigit_of_mem_toDigits hd, hstable _ h,
      hstable _ h'] at htrimmed
  rw [hmarks] at hlists
  exact Numeral.toDigits_injective (List.append_cancel_left hlists)

theorem length_entriesFrom (conditions : List (String × List Fragment)) (i : Nat) :
    (entriesFrom i conditions).length = conditions.length := by
  induction conditions generalizing i with
  | nil => rfl
  | cons e conditions ih => simp [entriesFrom, ih]

theorem mem_names_entriesFrom {conditions : List (String × List Fragment)} {i : Nat}
    {name : String} (h : name ∈ Table.names (entriesFrom i conditions)) :
    ∃ mark ∈ ["", "OR"], ∃ j, i ≤ j ∧ j < i + conditions.length ∧ name = mark ++ toString j := by
  induction conditions generalizing i with
  | nil => cases h
  | cons e conditions ih =>
    rcases List.mem_cons.mp h with rfl | h
    · obtain ⟨mark, hmark, hname⟩ := name_entry i e.2
      exact ⟨mark, hmark, i, by omega, by simp, hname⟩
    · obtain ⟨mark, hmark, j, hlow, hhigh, hname⟩ := ih h
      exact ⟨mark, hmark, j, by omega, by simp; omega, hname⟩

theorem nodup_names_entriesFrom (conditions : List (String × List Fragment)) (i : Nat) :
    (Table.names (entriesFrom i conditions)).Nodup := by
  induction conditions generalizing i with
  | nil => exact List.nodup_nil
  | cons e conditions ih =>
    refine List.nodup_cons.mpr ⟨?_, ih (i + 1)⟩
    intro hmem
    obtain ⟨mark, hmark, hname⟩ := name_entry i e.2
    obtain ⟨mark', hmark', j, hlow, -, hname'⟩ := mem_names_entriesFrom hmem
    have : i = j := mark_injective (List.mem_append_left ["AND"] hmark)
      (List.mem_append_left ["AND"] hmark') (hname.symm.trans hname')
    omega

end Filter.Compiled

namespace Search

open FieldRules.Filter (Compiled)

variable {c : Compiled} {extra : Option Tree}

def extraTruth? (E : String → Bool) (extra : Option Tree) : Option Bool :=
  extra.bind (Tree.truth? E .and)

theorem nodup_names_conditionTree (c : Compiled) (extra : Option Tree) :
    ∃ entries, conditionTree c extra = .map entries ∧ (Table.names entries).Nodup := by
  have hentries : (Table.names c.entries).Nodup := Compiled.nodup_names_entriesFrom c.conditions 0
  unfold conditionTree
  split
  next t ht =>
    refine ⟨_, rfl, ?_⟩
    rw [Table.names, List.map_append, List.nodup_append]
    refine ⟨hentries, List.nodup_singleton _, ?_⟩
    rintro name hname name' hname' rfl
    obtain rfl := List.mem_singleton.mp hname'
    obtain ⟨mark, hmark, j, -, hlt, hj⟩ := Compiled.mem_names_entriesFrom hname
    have hlast : c.entries.length = j := Compiled.mark_injective (by simp)
      (List.mem_append_left ["AND"] hmark) hj
    rw [← hlast, Compiled.entries, Compiled.length_entriesFrom] at hlt
    omega
  next => exact ⟨_, rfl, hentries⟩

theorem entryTruths_conditionTree (h : ∀ e ∈ c.conditions, e.2 ≠ []) :
    (conditionTree c extra).entryTruths E =
      Compiled.fieldTruths E c.conditions ++ (extraTruth? E extra).toList := by
  have hentries : Tree.namedTruths E c.entries = Compiled.fieldTruths E c.conditions :=
    Compiled.namedTruths_entriesFrom h 0
  unfold conditionTree
  split
  next t ht =>
    obtain ⟨rfl, -⟩ := Option.filter_eq_some_iff.mp ht
    have hand : Tree.opens? ("AND" ++ toString c.entries.length) = some .and :=
      (Tree.opens?_numbered "AND" _).trans (by decide)
    rw [Tree.entryTruths, Tree.namedTruths_append, hentries, Tree.namedTruths, hand]
    simp [extraTruth?, Tree.namedTruths]
  next hnone =>
    have hextra : extraTruth? E extra = none := by
      cases extra with
      | none => rfl
      | some t =>
        have hfalse : t.truthy = false := by simpa using hnone
        exact Tree.truth?_of_not_truthy hfalse .and
    rw [Tree.entryTruths, hentries, hextra]
    simp

theorem sound_conditionTree (h : ∀ e ∈ c.conditions, ∀ f ∈ e.2, Text.Balanced f.expression)
    (hextra : ∀ t, extra = some t → t.Sound ∧ (t.IsGroup ∨ t.truthy = false)) :
    (conditionTree c extra).Sound := by
  have hentries : Tree.NamedSound c.entries := Compiled.namedSound_entriesFrom h 0
  unfold conditionTree
  split
  next t ht =>
    obtain ⟨rfl, -⟩ := Option.filter_eq_some_iff.mp ht
    obtain ⟨hsound, hgroup⟩ := hextra t rfl
    exact Tree.namedSound_append hentries ⟨⟨hsound, fun _ => hgroup⟩, trivial⟩
  next => exact hentries

theorem isGroup_conditionTree (c : Compiled) (extra : Option Tree) :
    (conditionTree c extra).IsGroup := by
  unfold conditionTree
  split <;> trivial

theorem query_eq_ok {limit : Numeral.DigitLimit} {data : Table Value} {rules : RuleMap}
    {table : String} {select groupBy : Option String} {q : Query}
    (h : query limit data rules table select extra groupBy = .ok q) :
    ∃ c, Filter.compile limit data rules table = .ok c ∧
      (conditionTree c extra).compose = .ok q.condition := by
  unfold query at h
  split at h
  · cases h
  next c hc =>
    split at h
    · cases h
    next condition hcondition =>
      obtain ⟨order, -, rfl⟩ := Outcome.map_eq_ok.mp h
      exact ⟨c, hc, hcondition⟩

/-- A query's condition is read as all fields, each by any of its fragments, and the extra
    conditions; there is none only when neither filters nor extra conditions add anything. -/
theorem condition_read (limit : Numeral.DigitLimit) (data : Table Value) (rules : RuleMap)
    (table : String) (select : Option String) (extra : Option Tree) (groupBy : Option String)
    (hrules : Filter.BalancedRules rules table)
    (hextra : ∀ t, extra = some t → t.Sound ∧ (t.IsGroup ∨ t.truthy = false))
    (q : Query) (h : query limit data rules table select extra groupBy = .ok q)
    (E : String → Bool) (hE : ReadsGroups E) :
    ∃ c, Filter.compile limit data rules table = .ok c ∧
      (q.whereText? = none ↔ c.conditions = [] ∧ extraTruth? E extra = none) ∧
      ∀ s, q.whereText? = some s →
        E s = (c.conditions.all (fun e => e.2.any fun f => E f.expression) &&
          (extraTruth? E extra).getD true) := by
  obtain ⟨c, hc, hcompose⟩ := query_eq_ok h
  have hbalanced := Filter.balanced_of_compile hrules hc
  have hsound := sound_conditionTree (fun e he => (hbalanced e he).2) hextra
  have hgroup := isGroup_conditionTree c extra
  have hread : q.whereText?.map E = Connective.and.combine?
      (Compiled.fieldTruths E c.conditions ++ (extraTruth? E extra).toList) := by
    rw [← entryTruths_conditionTree fun e he => (hbalanced e he).1,
      ← Tree.truth?_of_isGroup hgroup]
    exact Tree.truth?_of_compose hE hsound hgroup hcompose
  refine ⟨c, hc, ?_, ?_⟩
  · rw [← Option.map_eq_none_iff, hread, Connective.combine?_eq_none_iff, List.append_eq_nil_iff,
      Option.toList_eq_nil_iff, Compiled.fieldTruths, List.map_eq_nil_iff]
  · intro s hs
    rw [hs, Option.map_some] at hread
    have hvalue := (Connective.combine?_eq_some_iff.mp hread.symm).2
    rw [← hvalue, Connective.combine, List.all_append, Compiled.fieldTruths, List.all_map]
    cases extraTruth? E extra with
    | none => rfl
    | some b =>
      rw [Option.toList_some, List.all_cons, List.all_nil, Bool.and_true]
      rfl

def notDeleted : Tree := .list [.leaf (.str "o.deleted_at IS NULL"), .leaf .null]

def namedRules : RuleMap := [("name", Filter.nameRule.prepare (some {}))]

theorem balanced_namedRules : Filter.BalancedRules namedRules "o" := by
  intro e he
  obtain rfl := List.mem_singleton.mp he
  refine ⟨rfl, by decide, ?_, ?_⟩
  · intro text htext
    cases htext
  · intro operand low high havoids
    cases havoids.1

theorem sound_notDeleted : notDeleted.Sound ∧ notDeleted.IsGroup := by
  refine ⟨⟨fun _ => ⟨_, rfl, by decide⟩, ?_, trivial⟩, trivial⟩
  intro htrue
  cases htrue

noncomputable def sparesDeleted : String → Bool :=
  reading fun atom => atom != "o.deleted_at IS NULL"

theorem extraTruth?_notDeleted : extraTruth? sparesDeleted (some notDeleted) = some false := by
  have hatom : sparesDeleted "o.deleted_at IS NULL" = false := by
    refine (reading_of_atom ?_).trans (by decide)
    intro kind texts hspells
    have hlists := congrArg String.toList hspells.eq
    rw [toList_bracketed] at hlists
    cases hlists
  have hleaf : Tree.truth? sparesDeleted .and (.leaf (.str "o.deleted_at IS NULL")) =
      some false := by
    rw [Tree.truth?, if_pos (by decide), Value.text, hatom]
  have hnull : Tree.truth? sparesDeleted .and (.leaf .null) = none :=
    Tree.truth?_of_not_truthy rfl .and
  rw [extraTruth?, Option.bind_some, notDeleted, Tree.truth?, Tree.itemTruths, Tree.itemTruths,
    Tree.itemTruths, hleaf, hnull]
  rfl

theorem deleted_rows_excluded : Filter.BalancedRules namedRules "o" ∧
    (∀ t, some notDeleted = some t → t.Sound ∧ (t.IsGroup ∨ t.truthy = false)) ∧
    ReadsGroups sparesDeleted ∧
    ∃ q, query none [("name", .str "%x,y")] namedRules "o" none (some notDeleted) none = .ok q ∧
      q.whereText? = some ("((UPPER(UNACCENT(o.name)) LIKE UPPER(UNACCENT(:oname1))) OR " ++
        "(o.name = :oname2)) AND (o.deleted_at IS NULL)") ∧
      ∀ s, q.whereText? = some s → sparesDeleted s = false := by
  have hextra : ∀ t, some notDeleted = some t → t.Sound ∧ (t.IsGroup ∨ t.truthy = false) := by
    rintro t ⟨⟩
    exact ⟨sound_notDeleted.1, .inl sound_notDeleted.2⟩
  have hreads : ReadsGroups sparesDeleted := readsGroups_reading _
  have hread : (query none [("name", .str "%x,y")] namedRules "o" none (some notDeleted)
      none).toOption.map Query.whereText? =
        some (some ("((UPPER(UNACCENT(o.name)) LIKE UPPER(UNACCENT(:oname1))) OR " ++
          "(o.name = :oname2)) AND (o.deleted_at IS NULL)")) := by
    decide +kernel
  cases hquery : query none [("name", .str "%x,y")] namedRules "o" none (some notDeleted) none with
  | error e =>
    rw [hquery] at hread
    cases hread
  | ok q =>
    rw [hquery] at hread
    obtain ⟨c, -, -, htruth⟩ := condition_read none _ namedRules "o" none (some notDeleted) none
      balanced_namedRules hextra q hquery sparesDeleted hreads
    refine ⟨balanced_namedRules, hextra, hreads, q, rfl, Option.some.inj hread, ?_⟩
    intro s hs
    rw [htruth s hs, extraTruth?_notDeleted]
    exact Bool.and_false _

end Search

end FieldRules
