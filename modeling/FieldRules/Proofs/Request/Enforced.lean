import FieldRules.Proofs.Request.Strays
import FieldRules.Proofs.Request.Reported
import FieldRules.Proofs.Validation.Conforming

namespace FieldRules.Request

open Validation

inductive Holds (spec : RuleSpec) : Value → Table Value → Prop where
  | itself {entries : Table Value} (hwhole : spec.elementType = none) :
      Holds spec (.map entries) entries
  | item {v : Value} {items : List Value} {entries : Table Value}
      (helement : spec.elementType ≠ none) (hitems : v.items? = some items)
      (hmem : .map entries ∈ items) : Holds spec v entries

structure DescribesParts (r : Rule) : Prop where
  type : ∃ b, r.spec.base? = some b ∧ b.hasParts = true
  nested : r.hasNested = true

structure DeclaredEntry (r : Rule) (v : Value) (entries : Table Value) (name : String)
    (part : Rule) (w : Value) : Prop where
  parts : DescribesParts r
  holds : Holds r.spec v entries
  rule : Table.get? r.nestedRules name = some part
  group : WellGrouped part.spec
  entry : entries.get? name = some w

/-- The nested rules of a field are enforced on its value, at every depth. Whether a map has other
    names is only known where a request is searched for strays. -/
inductive Enforced (searched : Prop) : Rule → Value → Prop where
  | intro {r : Rule} {v : Value}
      (declared : searched → DescribesParts r → ∀ entries, Holds r.spec v entries →
        ∀ name ∈ Table.names entries, name ∈ Table.names r.nestedRules)
      (met : ∀ entries name part w, DeclaredEntry r v entries name part w →
        ∃ base, FieldMeets part name base entries)
      (deeper : ∀ entries name part w, DeclaredEntry r v entries name part w →
        Enforced searched part w) :
      Enforced searched r v

variable {limit : Numeral.DigitLimit} {bags : Bags} {rules : RuleMap} {method source codes : String}
  {ctx : Context} {data entries : Table Value} {s : Setting} {r : Rule} {v w : Value}
  {label name base path : String} {steps : List Step} {spec : RuleSpec}

theorem Holds.not_isEmpty (h : Holds spec v entries) : v.isEmpty = false := by
  cases h with
  | itself => rfl
  | @item _ items _ _ hitems hmem =>
    have hne : items.isEmpty = false := List.isEmpty_eq_false_iff.mpr (List.ne_nil_of_mem hmem)
    cases v with
    | list => cases hitems; exact hne
    | tuple => cases hitems; exact hne
    | _ => cases hitems

theorem array_of_items {items : List Value} (h : OfType r.spec.type v)
    (hitems : v.items? = some items) : r.spec.base? = some .array := by
  rw [RuleSpec.base?]
  generalize r.spec.type = type at h
  obtain ⟨hhas⟩ := h
  cases hhas with
  | list => rfl
  | tuple => rfl
  | _ => cases hitems

theorem object_of_map {type : Option DeclaredType} (h : OfType type (.map entries)) :
    type = some (.known .object) := by
  obtain ⟨hhas⟩ := h
  cases hhas
  rfl

theorem shape_of_whole (hr : DescribesParts r) (hwhole : r.spec.elementType = none) :
    r.shape = .struct := by
  obtain ⟨⟨b, hbase, hparts⟩, hnested⟩ := hr
  rw [Rule.shape, Rule.shapeOf, hbase, hwhole, hnested]
  cases b with
  | object => rfl
  | array => rfl
  | _ => cases hparts

theorem isArray_of_element {c : DeclaredType} (hbase : r.spec.base? = some .array)
    (helement : r.spec.elementType = some c) : IsArray r := by
  unfold IsArray
  rw [Rule.shape, Rule.shapeOf, hbase, helement]
  cases c with
  | known c => dsimp only; split <;> simp
  | other => exact .inl rfl

theorem Holds.reached (h : Holds r.spec v entries) (hr : DescribesParts r)
    (hmeets : ValueMeets r label name data v) (path : String) :
    (∃ lead, Descends r.spec v lead entries) ∧ ∃ inner, PartOf r.shape path v entries inner := by
  obtain ⟨b, hbase, hparts⟩ := hr.type
  cases h with
  | itself hwhole =>
    exact ⟨⟨[], .itself hbase hparts hwhole⟩, path, .struct (shape_of_whole hr hwhole)⟩
  | @item _ items _ helement hitems hmem =>
    obtain ⟨t, ht⟩ := Option.ne_none_iff_exists'.mp helement
    have harray := array_of_items hmeets.type hitems
    have hitem : OfType r.spec.elementType (.map entries) :=
      hmeets.items (isArray_of_element harray ht) _ (by rwa [hitems])
    have hobject := object_of_map hitem
    have hshape : r.shape = .arrayOfStructs := by
      rw [Rule.shape, Rule.shapeOf, harray, hobject, hr.nested]
      rfl
    obtain ⟨i, hi⟩ := List.mem_iff_getElem?.mp hmem
    exact ⟨⟨[.item i], .item harray rfl hobject rfl hitems hi⟩,
      _, .item hshape (by rw [hitems]; exact hi)⟩

theorem enforced_of_clean {searched : Prop} (r : Rule) {name base : String} {data : Table Value}
    {v : Value} (h : ofField s name data base r = []) (hget : data.get? name = some v)
    (hbelow : searched → ∀ steps, ¬StrayBelow r v steps) : Enforced searched r v := by
  induction r using Rule.nested_induction generalizing name base data v with
  | step r ih =>
    obtain ⟨hfield, hstructs⟩ := ofField_eq_nil_iff.mp h
    -- A value that holds a map is not empty, so the value itself met the rule of its field.
    have hreached : DescribesParts r → ∀ entries, Holds r.spec v entries →
        (∃ lead, Descends r.spec v lead entries) ∧
          ∃ inner, PartOf r.shape (base ++ name) v entries inner := by
      intro hr entries hholds
      exact hholds.reached hr ((fieldMeets_filled_iff hget hholds.not_isEmpty).mp hfield).2 _
    have hclean : ∀ entries name part w, DeclaredEntry r v entries name part w →
        ∃ base, ofField s name entries base part = [] := by
      intro entries name part w hentry
      obtain ⟨inner, hpart⟩ := (hreached hentry.parts entries hentry.holds).2
      have hstruct := hstructs v hget hentry.holds.not_isEmpty entries inner hpart
      exact ⟨_, ofField_of_clean hstruct _ (Table.mem_of_get?_eq_some hentry.rule) hentry.group
        (Option.isSome_of_eq_some hentry.entry)⟩
    refine .intro ?_ ?_ ?_
    · intro hsearched hr entries hholds name hname
      obtain ⟨lead, hdescends⟩ := (hreached hr entries hholds).1
      obtain ⟨e, he, rfl⟩ := List.mem_map.mp hname
      by_contra hnot
      exact hbelow hsearched _
        (.undeclared hr.nested hdescends he ((Table.get?_eq_none_iff _ _).mpr hnot))
    · intro entries name part w hentry
      obtain ⟨base, hempty⟩ := hclean entries name part w hentry
      exact ⟨base, (ofField_eq_nil_iff.mp hempty).1⟩
    · intro entries name part w hentry
      obtain ⟨base, hempty⟩ := hclean entries name part w hentry
      obtain ⟨lead, hdescends⟩ := (hreached hentry.parts entries hentry.holds).1
      refine ih _ (Table.mem_of_get?_eq_some hentry.rule) hempty hentry.entry ?_
      intro hsearched steps hstray
      exact hbelow hsearched _
        (.deeper hdescends (Table.mem_of_get?_eq_some hentry.entry) hentry.rule hstray)

theorem Descends.parts (h : Descends spec v steps entries) :
    ∃ b, spec.base? = some b ∧ b.hasParts = true := by
  cases h with
  | itself hbase hparts => exact ⟨_, hbase, hparts⟩
  | item hbase hparts => exact ⟨_, hbase, hparts⟩

theorem not_descends_null : ¬Descends spec .null steps entries := by
  intro h
  cases h with
  | item _ _ _ _ hitems => cases hitems

theorem StrayBelow.exists_descends (h : StrayBelow r v steps) :
    ∃ lead entries, Descends r.spec v lead entries := by
  cases h with
  | undeclared _ hmap => exact ⟨_, _, hmap⟩
  | deeper hmap => exact ⟨_, _, hmap⟩

theorem coerce_of_parts {b : BaseType} (hbase : spec.base? = some b) (hparts : b.hasParts = true)
    (v : Value) : coerce limit spec v = .ok v := by
  unfold coerce
  rw [hbase]
  cases b with
  | object => cases v <;> rfl
  | array => cases v <;> rfl
  | _ => cases hparts

theorem strayBelow_sent (hcoerce : coerce limit r.spec (withoutEmptyText v) = .ok w)
    (h : StrayBelow r w steps) : StrayBelow r v steps := by
  obtain ⟨lead, entries, hmap⟩ := h.exists_descends
  obtain ⟨b, hbase, hparts⟩ := hmap.parts
  rw [coerce_of_parts hbase hparts] at hcoerce
  obtain rfl := Except.ok.inj hcoerce
  unfold withoutEmptyText at hmap h
  split at h
  · exact absurd hmap not_descends_null
  · exact h

theorem not_strayBelow_of_strays (h : strays bags rules source = []) {bagName : String}
    (hbag : bagName ∈ checkedBags) (hsent : (bag bags bagName).get? name = some v)
    (hrule : Table.get? rules name = some r) (hplace : bagName = sourceOf r.spec source)
    (steps : List Step) : ¬StrayBelow r v steps := by
  intro hbelow
  have hat := StrayAt.below hbag (Table.mem_of_get?_eq_some hsent) hrule hplace hbelow
  have hmem := mem_strays_iff.mpr ⟨_, _, hat, rfl⟩
  rw [h] at hmem
  cases hmem

def Searched (bags : Bags) (source : String) (name : String) (spec : RuleSpec) : Prop :=
  sourceOf spec source ∈ checkedBags ∧ (bag bags (sourceOf spec source)).has name = true

/-- The nested rules of every field of an accepted request are enforced on its value. -/
theorem nested_rules_enforced (hn : (Table.names rules).Nodup)
    (h : validated limit bags rules method ctx codes = .ok data)
    (hrule : Table.get? rules name = some r) (hgroup : WellGrouped r.spec)
    (hget : data.get? name = some v) :
    FieldMeets r name "" data ∧
      Enforced (Searched bags (defaultSource method) name r.spec) r v := by
  obtain ⟨hextract, hclean⟩ := validated_eq_ok h
  have hmem := Table.mem_of_get?_eq_some hrule
  have hempty : ofField ⟨ctx, codes⟩ name data "" r = [] :=
    ofField_of_clean hclean _ hmem hgroup (Option.isSome_of_eq_some hget)
  refine ⟨(ofField_eq_nil_iff.mp hempty).1, enforced_of_clean r hempty hget ?_⟩
  -- Strays are sought in what was sent, the nested rules are enforced on what was picked from it.
  rintro ⟨hbag, hhas⟩ steps hbelow
  obtain ⟨sent, hsent⟩ := Option.isSome_iff_exists.mp hhas
  have hspecs : (name, r.spec) ∈ rules.map fun r => (r.1, r.2.spec) :=
    List.mem_map.mpr ⟨_, hmem, rfl⟩
  have hnames : ((rules.map fun r => (r.1, r.2.spec)).map Prod.fst).Nodup := by
    rwa [List.map_map]
  obtain ⟨sent', hsent', hcoerce⟩ :=
    (get?_extractFrom hnames (extractFrom_of_extract hextract) hspecs).mp hget
  rw [sent?, hsent] at hsent'
  obtain rfl := Option.some.inj hsent'
  exact not_strayBelow_of_strays (strays_of_validated h) hbag hsent hrule rfl steps
    (strayBelow_sent hcoerce hbelow)

def redItems : Value := .list [.map [("sku", .str "b"), ("options", .map [("color", .str "red")])]]

def redBags : Bags := [("body", [("items", redItems)])]

theorem red_items_enforced :
    validated none redBags orderRules "POST" {} "request." = .ok [("items", redItems)] ∧
      Searched redBags "body" "items" itemsRule.spec ∧
      Enforced (Searched redBags "body" "items" itemsRule.spec) itemsRule redItems := by
  have haccepted : validated none redBags orderRules "POST" {} "request." =
      .ok [("items", redItems)] := by rfl
  have hgroup : WellGrouped itemsRule.spec := nofun
  exact ⟨haccepted, ⟨by decide, by decide⟩,
    (nested_rules_enforced (by decide) haccepted rfl hgroup rfl).2⟩

def placeRule (spec : RuleSpec) : Rule :=
  { spec := { spec with type := some (.known .object) }, nested := some [("city", { spec := {} })] }

def codeOnly : Value := .map [("zip", .str "53111")]

theorem not_enforced_codeOnly (hwhole : spec.elementType = none) :
    ¬Enforced True (placeRule spec) codeOnly := by
  rintro ⟨hdeclared, -, -⟩
  have hzip := hdeclared trivial ⟨⟨_, rfl, rfl⟩, rfl⟩ _ (.itself hwhole) "zip" (.head _)
  simp [placeRule, Rule.nestedRules, Table.names] at hzip

def numberedCity : Value := .map [("city", .int 5)]

theorem not_enforced_numberedCity (hwhole : spec.elementType = none) :
    ¬Enforced True (placeRule spec) numberedCity := by
  rintro ⟨-, hmet, -⟩
  obtain ⟨base, hcity⟩ :=
    hmet _ "city" { spec := {} } _ ⟨⟨⟨_, rfl, rfl⟩, rfl⟩, .itself hwhole, rfl, nofun, rfl⟩
  have htype : ¬OfType (some (.known .string)) (.int 5) := by
    rintro ⟨⟨⟩⟩
  exact not_fieldMeets_of_type rfl rfl htype hcity

def unchosenOption : ChoiceGroup := ⟨.str "kind", .float .nan, true⟩

def skuRule : Rule := { spec := { type := some (.known .integer) } }

def looseItemsRule : Rule :=
  { spec := { type := some (.known .array) }, nested := some [("sku", skuRule)] }

def textSku : Table Value := [("sku", .str "a")]

theorem unenforced_places :
    (validated none [("headers", [("place", codeOnly)])]
        [("place", placeRule { source := some "headers" })] "GET" {} "request." =
        .ok [("place", codeOnly)] ∧
      ¬Enforced True (placeRule { source := some "headers" }) codeOnly) ∧
    (validated none [] [("place", placeRule { default := some codeOnly })] "GET" {} "request." =
        .ok [("place", codeOnly)] ∧
      ¬Enforced True (placeRule { default := some codeOnly }) codeOnly) ∧
    (validated none [("body", [("place", numberedCity)])]
        [("place", placeRule { choiceGroup := some unchosenOption })] "POST" {} "request." =
        .ok [("place", numberedCity)] ∧
      ¬Enforced True (placeRule { choiceGroup := some unchosenOption }) numberedCity) ∧
    validated none [("body", [("items", .list [.map textSku])])]
        [("items", looseItemsRule)] "POST" {} "request." = .ok [("items", .list [.map textSku])] ∧
      ∀ base, ¬FieldMeets skuRule "sku" base textSku := by
  have htype : ¬OfType (some (.known .integer)) (.str "a") := by
    rintro ⟨⟨⟩⟩
  have hsku : ∀ base, ¬FieldMeets skuRule "sku" base textSku :=
    fun base => not_fieldMeets_of_type rfl rfl htype
  exact ⟨⟨rfl, not_enforced_codeOnly rfl⟩, ⟨rfl, not_enforced_codeOnly rfl⟩,
    ⟨rfl, not_enforced_numberedCity rfl⟩, rfl, hsku⟩

end FieldRules.Request
