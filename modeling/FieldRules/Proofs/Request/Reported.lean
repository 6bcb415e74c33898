import FieldRules.Proofs.Request.Undeclared
import FieldRules.Proofs.Validation.Errors

namespace FieldRules

namespace Value

mutual

def namesWithin : Value → List String
  | map entries => namesOfEntries entries
  | list items => namesOfItems items
  | tuple items => namesOfItems items
  | _ => []

def namesOfEntries : List (String × Value) → List String
  | [] => []
  | (name, v) :: entries => name :: (namesWithin v ++ namesOfEntries entries)

def namesOfItems : List Value → List String
  | [] => []
  | v :: items => namesWithin v ++ namesOfItems items

end

variable {entries : List (String × Value)} {items : List Value} {v w : Value} {name other : String}

theorem mem_namesOfEntries :
    other ∈ namesOfEntries entries ↔ ∃ e ∈ entries, other = e.1 ∨ other ∈ namesWithin e.2 := by
  induction entries with
  | nil => simp [namesOfEntries]
  | cons e entries ih =>
    obtain ⟨name, v⟩ := e
    rw [namesOfEntries, List.mem_cons, List.mem_append, ih, ← or_assoc]
    simp only [List.mem_cons, exists_eq_or_imp]

theorem namesWithin_of_entry {e : String × Value} (he : e ∈ entries) :
    e.1 ∈ namesWithin (map entries) ∧
      ∀ other ∈ namesWithin e.2, other ∈ namesWithin (map entries) :=
  ⟨mem_namesOfEntries.mpr ⟨e, he, .inl rfl⟩,
    fun _ hother => mem_namesOfEntries.mpr ⟨e, he, .inr hother⟩⟩

theorem mem_namesOfItems :
    other ∈ namesOfItems items ↔ ∃ w ∈ items, other ∈ namesWithin w := by
  induction items with
  | nil => simp [namesOfItems]
  | cons w items ih =>
    rw [namesOfItems, List.mem_append, ih]
    simp only [List.mem_cons, exists_eq_or_imp]

theorem namesWithin_of_items (h : v.items? = some items) : namesWithin v = namesOfItems items := by
  cases v with
  | list => cases h; rfl
  | tuple => cases h; rfl
  | _ => cases h

end Value

namespace Request

variable {bags others : Bags} {rules : RuleMap} {source path : String} {ctx : Context}
  {spec : RuleSpec} {r : Rule} {v : Value} {lead steps : List Step} {entries : Table Value}
  {a b : Address} {s t : Stray}

def PlainNames (bags : Bags) : Prop :=
  ∀ bagName ∈ checkedBags, ∀ name ∈ (Value.map (bag bags bagName)).namesWithin, PlainName name

instance (bags : Bags) : Decidable (PlainNames bags) :=
  inferInstanceAs (Decidable (∀ bagName ∈ checkedBags, ∀ name ∈ _, PlainName name))

theorem Descends.namesWithin (h : Descends spec v lead entries) :
    ∀ name ∈ (Value.map entries).namesWithin, name ∈ v.namesWithin := by
  intro name hname
  cases h with
  | itself => exact hname
  | item hbase hparts helement hitem hitems hi =>
    rw [Value.namesWithin_of_items hitems, Value.mem_namesOfItems]
    exact ⟨_, List.mem_of_getElem? hi, hname⟩

theorem Descends.plain (h : Descends spec v lead entries) : ∀ step ∈ lead, step.Plain := by
  cases h with
  | itself => exact fun _ hstep => nomatch hstep
  | item => exact List.forall_mem_singleton.mpr trivial

theorem StrayBelow.plain (h : StrayBelow r v steps)
    (hnames : ∀ name ∈ v.namesWithin, PlainName name) : ∀ step ∈ steps, step.Plain := by
  induction h with
  | undeclared hnested hmap he hrule =>
    obtain ⟨hname, -⟩ := Value.namesWithin_of_entry he
    refine List.forall_mem_append.mpr ⟨hmap.plain, List.forall_mem_singleton.mpr ?_⟩
    exact hnames _ (hmap.namesWithin _ hname)
  | deeper hmap he hrule hbelow ih =>
    obtain ⟨hname, hinner⟩ := Value.namesWithin_of_entry he
    refine List.forall_mem_append.mpr ⟨hmap.plain, List.forall_mem_cons.mpr ⟨?_, ih ?_⟩⟩
    · exact hnames _ (hmap.namesWithin _ hname)
    · exact fun other hother => hnames _ (hmap.namesWithin _ (hinner other hother))

theorem StrayBelow.ne_nil (h : StrayBelow r v steps) : steps ≠ [] := by
  cases h <;> simp

theorem StrayAt.plain (hnames : PlainNames bags) (h : StrayAt bags rules source a s) :
    a.Plain := by
  have htop : ∀ bagName ∈ checkedBags, ∀ e ∈ bag bags bagName,
      PlainName e.1 ∧ ∀ name ∈ e.2.namesWithin, PlainName name := by
    intro bagName hbag e he
    obtain ⟨hname, hinner⟩ := Value.namesWithin_of_entry he
    exact ⟨hnames _ hbag _ hname, fun other hother => hnames _ hbag _ (hinner other hother)⟩
  cases h with
  | undeclared hbag he => exact ⟨(htop _ hbag _ he).1, fun _ hstep => nomatch hstep⟩
  | misplaced hbag he => exact ⟨(htop _ hbag _ he).1, fun _ hstep => nomatch hstep⟩
  | below hbag he hrule hplace hbelow =>
    exact ⟨(htop _ hbag _ he).1, hbelow.plain (htop _ hbag _ he).2⟩

theorem StrayAt.unique (hs : StrayAt bags rules source a s) (ht : StrayAt bags rules source a t) :
    s = t := by
  cases hs with
  | undeclared _ _ hrule =>
    cases ht with
    | undeclared => rfl
    | misplaced _ _ hother => simp [hrule] at hother
    | below => rfl
  | misplaced _ _ hrule =>
    cases ht with
    | undeclared _ _ hother => simp [hrule] at hother
    | misplaced => rfl
    | below _ _ _ _ hbelow => exact absurd rfl hbelow.ne_nil
  | below _ _ _ _ hbelow =>
    cases ht with
    | undeclared => rfl
    | misplaced => exact absurd rfl hbelow.ne_nil
    | below => rfl

theorem StrayAt.eq_of_text_eq (hnames : PlainNames bags) (hs : StrayAt bags rules source a s)
    (ht : StrayAt bags rules source b t) (h : a.text = b.text) : a = b ∧ s = t := by
  obtain rfl := Address.text_injective (hs.plain hnames) (ht.plain hnames) h
  exact ⟨rfl, hs.unique ht⟩

theorem strays_congr (h : ∀ bagName ∈ checkedBags, bag others bagName = bag bags bagName) :
    strays others rules source = strays bags rules source := by
  rw [strays, strays, List.flatMap_def, List.flatMap_def]
  refine congrArg List.flatten (List.map_congr_left fun bagName hbag => ?_)
  rw [h bagName hbag]

theorem get?_unknownParameters_iff (hnames : PlainNames bags) {e : FieldError} :
    (unknownParameters ctx bags rules source).get? path = some e ↔
      ∃ a stray, StrayAt bags rules source a stray ∧ a.text = path ∧
        e = .make ctx path stray.code [("label", .str path)] := by
  refine (Errors.get?_ofList_iff ?_).trans ?_
  · simp only [List.mem_map, mem_strays_iff]
    rintro _ ⟨_, ⟨a, s, hs, rfl⟩, rfl⟩ _ ⟨_, ⟨b, t, ht, rfl⟩, rfl⟩ hpath
    obtain ⟨rfl, rfl⟩ := hs.eq_of_text_eq hnames ht hpath
    rfl
  · simp only [List.mem_map, mem_strays_iff]
    constructor
    · rintro ⟨⟨_, ⟨a, s, hs, rfl⟩, rfl⟩, rfl⟩
      exact ⟨a, s, hs, rfl, rfl⟩
    · rintro ⟨a, s, hs, rfl, rfl⟩
      exact ⟨⟨_, ⟨a, s, hs, rfl⟩, rfl⟩, rfl⟩

theorem nodup_names_unknownParameters (ctx : Context) (bags : Bags) (rules : RuleMap)
    (source : String) : (Table.names (unknownParameters ctx bags rules source)).Nodup :=
  Table.nodup_names_merge (by simp [Table.names]) _

/-- Undeclared and misplaced parameters are reported exactly: there is one error for each of them,
    at its address, and no other bag than the body and the query has a part in it. -/
theorem unknownParameters_exact (ctx : Context) (rules : RuleMap) (source : String)
    (hnames : PlainNames bags) :
    (∀ path e, (unknownParameters ctx bags rules source).get? path = some e ↔
      ∃ a stray, StrayAt bags rules source a stray ∧ a.text = path ∧
        e = .make ctx path stray.code [("label", .str path)]) ∧
    (Table.names (unknownParameters ctx bags rules source)).Nodup ∧
    (∀ a b s t, StrayAt bags rules source a s → StrayAt bags rules source b t →
      a.text = b.text → a = b ∧ s = t) ∧
    ∀ others : Bags, (∀ bagName ∈ checkedBags, bag others bagName = bag bags bagName) →
      unknownParameters ctx others rules source = unknownParameters ctx bags rules source := by
  refine ⟨fun path e => get?_unknownParameters_iff hnames,
    nodup_names_unknownParameters ctx bags rules source, ?_, ?_⟩
  · intro a b s t hs ht htext
    exact hs.eq_of_text_eq hnames ht htext
  · intro others hsame
    rw [unknownParameters, unknownParameters, strays_congr hsame]

def optionsRule : Rule :=
  { spec := { type := some (.known .object) }, nested := some [("color", { spec := {} })] }

def itemsRule : Rule :=
  { spec := { type := some (.known .array), elementType := some (.known .object) }
    nested := some [("sku", { spec := {} }), ("options", optionsRule)] }

def orderRules : RuleMap :=
  [("items", itemsRule), ("note", { spec := { source := some "query" } })]

def darkRed : Value := .map [("color", .str "red"), ("shade", .str "dark")]

def orderItems : Value :=
  .list [.map [("sku", .str "a")], .map [("sku", .str "b"), ("options", darkRed)]]

def orderBags : Bags :=
  [("headers", [("accept", .str "text/html")]),
    ("body", [("items", orderItems), ("note", .str "n"), ("coupon", .str "c")])]

theorem order_strays : PlainNames orderBags ∧
    (unknownParameters {} orderBags orderRules "body").get? "items[1].options.shade" =
      some (.make {} "items[1].options.shade" "request.validator.unknown_parameter"
        [("label", .str "items[1].options.shade")]) := by
  have hnames : PlainNames orderBags := by decide
  have hshade : StrayBelow optionsRule darkRed ([] ++ [.entry "shade"]) :=
    .undeclared rfl (.itself rfl rfl rfl) (.tail _ (.head _)) rfl
  have hitems : StrayBelow itemsRule orderItems
      ([.item 1] ++ .entry "options" :: ([] ++ [.entry "shade"])) :=
    .deeper (.item rfl rfl rfl rfl rfl rfl) (.tail _ (.head _)) rfl hshade
  refine ⟨hnames, ((unknownParameters_exact {} orderRules "body" hnames).1 _ _).mpr ?_⟩
  exact ⟨⟨"items", [.item 1, .entry "options", .entry "shade"]⟩, .unknown,
    .below (by decide) (.head _) rfl rfl hitems, by decide, rfl⟩

end Request

end FieldRules
