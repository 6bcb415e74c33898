import FieldRules.Proofs.Filter.Buildable
import FieldRules.Proofs.Numeral.Canonical
import FieldRules.Proofs.Text.Pieces
import FieldRules.Search.Query

namespace FieldRules

namespace Tree

theorem connective?_numbered (mark : String) (i : Nat) :
    connective? (mark ++ toString i) = connective? mark := by
  have htoList : (mark ++ toString i).toList = mark.toList ++ Nat.toDigits 10 i := by simp
  unfold connective?
  rw [htoList, Text.trimEnd_append _ fun d hd => Numeral.isDigit_of_mem_toDigits hd]

theorem itemParts_fragments (fs : List Fragment) :
    itemParts (fs.map .fragment) = .ok (fs.map .fragment) := by
  induction fs with
  | nil => rfl
  | cons f fs ih => simp [itemParts, entryParts, truthy, ih, Except.map]

theorem entryParts_list (kind? : Option Connective) (items : List Tree) {ps : List Part}
    (h : itemParts items = .ok ps) :
    ∃ qs, entryParts kind? (.list items) (parts (.list items)) = .ok qs := by
  rw [parts, h]
  unfold entryParts
  split
  · exact ⟨_, rfl⟩
  · cases kind? with
    | none => exact ⟨_, rfl⟩
    | some kind => exact ⟨_, rfl⟩

theorem namedParts_cons {name : String} {t : Tree} {es : List (String × Tree)}
    (h : ∃ ps, entryParts (connective? name) t (parts t) = .ok ps)
    (hes : ∃ ps, namedParts es = .ok ps) : ∃ ps, namedParts ((name, t) :: es) = .ok ps := by
  obtain ⟨ps, hps⟩ := h
  obtain ⟨qs, hqs⟩ := hes
  exact ⟨ps ++ qs, by simp [namedParts, hps, hqs, Except.map]⟩

end Tree

namespace Filter.Compiled

theorem entryParts_entry (i : Nat) (fs : List Fragment) :
    ∃ ps, Tree.entryParts (Tree.connective? (entry i fs).1) (entry i fs).2
      (Tree.parts (entry i fs).2) = .ok ps := by
  unfold entry
  split
  next f =>
    have hnone : Tree.connective? (toString i) = none := by
      have := Tree.connective?_numbered "" i
      rw [String.empty_append] at this
      exact this.trans (by decide)
    dsimp only
    rw [hnone]
    exact ⟨_, rfl⟩
  · exact Tree.entryParts_list _ _ (Tree.itemParts_fragments _)

theorem namedParts_entriesFrom (conditions : List (String × List Fragment)) (i : Nat) :
    ∃ ps, Tree.namedParts (entriesFrom i conditions) = .ok ps := by
  induction conditions generalizing i with
  | nil => exact ⟨[], rfl⟩
  | cons e conditions ih => exact Tree.namedParts_cons (entryParts_entry i e.2) (ih (i + 1))

theorem compose_total (c : Compiled) :
    ∃ condition, (Search.conditionTree c none).compose = .ok condition := by
  obtain ⟨ps, hps⟩ := namedParts_entriesFrom c.conditions 0
  have htree : Search.conditionTree c none = .map c.entries := rfl
  rw [htree]
  unfold Tree.compose
  split
  · exact ⟨_, rfl⟩
  · rw [Tree.parts, entries, hps]
    cases ps with
    | nil => exact ⟨_, rfl⟩
    | cons p ps => exact ⟨_, rfl⟩

end Filter.Compiled

namespace Search

theorem ofText?_text (d : Direction) : Direction.ofText? d.text = some d := by
  cases d <;> rfl

inductive SortItem : String → String → Direction → Prop
  | plain {name : String} : '|' ∉ name.toList → SortItem name name .ascending
  | directed {name word : String} {d : Direction} : '|' ∉ name.toList → '|' ∉ word.toList →
      Text.upper word = d.text → SortItem (name ++ "|" ++ word) name d

theorem sortItem_stands {columns : Table (Option String)} {item : String}
    (h : Filter.sortItem columns item = true) :
    ∃ name d, SortItem item name d ∧ columns.has name = true := by
  unfold Filter.sortItem Text.pieces at h
  rcases Text.divided_or_not_mem '|' item.toList with hn | ⟨low, high, hlow, hcs⟩
  · rw [Text.splitOn_of_not_mem hn, List.map_singleton, String.ofList_toList] at h
    exact ⟨item, .ascending, .plain hn, h⟩
  · rw [hcs, Text.splitOn_append_cons hlow] at h
    rcases Text.divided_or_not_mem '|' high with hn | ⟨low', high', hlow', rfl⟩
    · rw [Text.splitOn_of_not_mem hn] at h
      simp only [List.map_cons, List.map_nil, Bool.and_eq_true, Bool.or_eq_true,
        beq_iff_eq] at h
      obtain ⟨hname, hdir⟩ := h
      have hitem : item = String.ofList low ++ "|" ++ String.ofList high := by
        rw [← String.toList_inj]
        simp [hcs]
      have hdirected {d : Direction} (hd : Text.upper (String.ofList high) = d.text) :
          SortItem item (String.ofList low) d := by
        rw [hitem]
        exact .directed (by simpa using hlow) (by simpa using hn) hd
      rcases hdir with hdir | hdir
      · exact ⟨_, .ascending, hdirected hdir, hname⟩
      · exact ⟨_, .descending, hdirected hdir, hname⟩
    · rw [Text.splitOn_append_cons hlow'] at h
      obtain ⟨d, ds, hd⟩ := List.exists_cons_of_ne_nil (Text.splitOn_ne_nil '|' high')
      simp [hd] at h

theorem SortItem.orderItem {item name : String} {d : Direction} (h : SortItem item name d) :
    orderItem item = (name, d.text) := by
  cases h with
  | plain hname =>
    rw [Search.orderItem, Text.cutAt_of_not_mem hname]
    dsimp only
    rw [String.ofList_toList]
    rfl
  | @directed name word d hname _ hd =>
    have hcut : Text.cutAt '|' (name ++ "|" ++ word).toList = (name.toList, some word.toList) := by
      rw [String.toList_append, String.toList_append, List.append_assoc]
      exact Text.cutAt_append_cons hname word.toList
    rw [Search.orderItem, hcut]
    cases hword : word.toList with
    | nil =>
      -- no direction is written with nothing
      obtain rfl : word = "" := String.toList_inj.mp hword
      exact absurd hd (by cases d <;> decide)
    | cons c cs =>
      dsimp only
      rw [← hword, String.ofList_toList, String.ofList_toList, hd]

theorem orderItem_of_sortItem {columns : Table (Option String)} {item : String}
    (h : Filter.sortItem columns item = true) :
    ∃ name d, orderItem item = (name, Direction.text d) ∧ columns.has name = true := by
  obtain ⟨name, d, hitem, hname⟩ := sortItem_stands h
  exact ⟨name, d, hitem.orderItem, hname⟩

variable {rules : RuleMap} {r : Rule} {columns : Table (Option String)}

theorem orderExpression_total (hr : Table.get? rules "orderBy" = some r)
    (hcolumns : r.spec.columns = some columns) {name : String}
    (hname : columns.has name = true) (table : String) (d : Direction) :
    ∃ s, orderExpression rules table name d = .ok s := by
  obtain ⟨column, hcolumn⟩ := Option.isSome_iff_exists.mp hname
  unfold orderExpression
  dsimp only
  split
  · split <;> exact ⟨_, rfl⟩
  · simp only [hr, hcolumns, Option.bind_some, Option.getD_some, hcolumn]
    exact ⟨_, rfl⟩

theorem orderAll_total (hr : Table.get? rules "orderBy" = some r)
    (hcolumns : r.spec.columns = some columns) {items : List String}
    (hitems : ∀ item ∈ items, Filter.sortItem columns item = true) (table : String) :
    ∃ order, orderAll rules table items = .ok order := by
  induction items with
  | nil => exact ⟨[], rfl⟩
  | cons item items ih =>
    obtain ⟨name, d, hitem, hname⟩ := orderItem_of_sortItem (hitems item List.mem_cons_self)
    obtain ⟨s, hs⟩ := orderExpression_total hr hcolumns hname table d
    obtain ⟨order, horder⟩ := ih fun i hi => hitems i (List.mem_cons_of_mem item hi)
    have hof : orderOf rules table item = .ok s := by
      simp [orderOf, hitem, ofText?_text, hs]
    exact ⟨s :: order, by simp [orderAll, hof, horder, Except.map]⟩

theorem orderBy_total (hr : Table.get? rules "orderBy" = some r)
    (hcolumns : r.spec.columns = some columns) {raw : Value}
    (hraw : raw.truthy = true → ∃ s, raw = .str s ∧
      ∀ item ∈ Text.pieces s ',', Filter.sortItem columns item = true) (defaultAlias : String) :
    ∃ order, orderBy raw rules defaultAlias = .ok order := by
  unfold orderBy
  split
  · exact ⟨[], rfl⟩
  next htrue =>
    obtain ⟨s, rfl, hitems⟩ := hraw (by simpa using htrue)
    exact orderAll_total hr hcolumns hitems _

theorem query_of_parts {limit : Numeral.DigitLimit} {data : Table Value} {table : String}
    {extra : Option Tree} {c : Filter.Compiled} {condition : Option Composite} {order : List String}
    (hc : Filter.compile limit data rules table = .ok c)
    (hcondition : (conditionTree c extra).compose = .ok condition)
    (ho : orderBy ((data.get? "orderBy").getD .null) rules table = .ok order)
    (select groupBy : Option String) :
    ∃ q, query limit data rules table select extra groupBy = .ok q ∧ q.condition = condition ∧
      q.params = c.params.merge ((condition.map Composite.params).getD []) := by
  simp only [query, hc, hcondition, ho, Except.map]
  exact ⟨_, rfl, rfl, rfl⟩

theorem query_total {data : Table Value} {defaultAlias : String} {c : Filter.Compiled}
    {order : List String} (hc : Filter.compile none data rules defaultAlias = .ok c)
    (ho : orderBy ((data.get? "orderBy").getD .null) rules defaultAlias = .ok order)
    (select groupBy : Option String) :
    ∃ q, query none data rules defaultAlias select none groupBy = .ok q := by
  obtain ⟨condition, hcondition⟩ := c.compose_total
  obtain ⟨q, hq, -⟩ := query_of_parts hc hcondition ho select groupBy
  exact ⟨q, hq⟩

end Search

end FieldRules
