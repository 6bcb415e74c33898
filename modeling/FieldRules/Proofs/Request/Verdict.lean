import FieldRules.Proofs.Request.Strays
import FieldRules.Proofs.Text.Row
import FieldRules.Proofs.Validation.SearchCheck

namespace FieldRules

structure HandlerRules (format : String) (rules : RuleMap) : Prop where
  names : (Table.names rules).Nodup
  explicit : ∀ e ∈ rules, isImplicit e.1 = false
  fields : ∀ e ∈ rules, HandlerField format e.2

theorem HandlerRules.searchRules {format : String} {rules : RuleMap}
    (h : HandlerRules format rules) : SearchRules rules := by
  have hne : ∀ name, isImplicit name = true → ∀ e ∈ rules, e.1 ≠ name := by
    rintro name hname e he rfl
    rw [h.explicit e he] at hname
    cases hname
  constructor
  · intro e he _
    exact (h.fields e he).search
  · intro e he hname
    exact absurd hname (hne "orderBy" (by decide) e he)
  · exact hne "limit" (by decide)
  · exact hne "offset" (by decide)

namespace HandlerRules

variable {g : Filter.Grammar} {rules : RuleMap}

theorem mem_prepare_of_mem (h : HandlerRules g.dateFormat rules) {name : String} {r : Rule}
    (hr : (name, r) ∈ rules) : (name, r.prepare (some g)) ∈ rules.prepare (some g) := by
  obtain ⟨names, hmem⟩ := RuleMap.mem_prepare_iff (g := some g) h.names h.explicit
  exact (hmem _).mpr (.inr (.inr (.inl ⟨r, hr, rfl⟩)))

theorem namedGroup (h : HandlerRules g.dateFormat rules) :
    ∀ e ∈ rules.prepare (some g), NamedGroup e.2.spec := by
  obtain ⟨names, hmem⟩ := RuleMap.mem_prepare_iff (g := some g) h.names h.explicit
  rintro ⟨name, r'⟩ he
  rcases (hmem _).mp he with he | he | ⟨r, hr, rfl⟩ | he
  · cases he
    rintro c ⟨⟩
  · cases he
    rintro c ⟨⟩
  · have hgroup : NamedGroup r.spec.prepared := (h.fields _ hr).group
    rwa [Validation.spec_prepare (h.fields _ hr)]
  · cases he
    rintro c ⟨⟩

theorem ordinary (h : HandlerRules g.dateFormat rules) (hcodes : isInternalCode g.codes = false) :
    ∀ e ∈ rules.prepare (some g), Validation.Ordinary e.2 ∧ Validation.Fair e.2 := by
  obtain ⟨names, hmem⟩ := RuleMap.mem_prepare_iff (g := some g) h.names h.explicit
  rintro ⟨name, r'⟩ he
  rcases (hmem _).mp he with he | he | ⟨r, hr, rfl⟩ | he
  · cases he
    exact ⟨Validation.ordinary_counting _, Validation.fair_counting _⟩
  · cases he
    exact ⟨Validation.ordinary_counting _, Validation.fair_counting _⟩
  · have hfield := h.fields _ hr
    exact ⟨Validation.ordinary_prepare hfield, Validation.fair_prepare hcodes hfield⟩
  · cases he
    exact ⟨Validation.ordinary_sorting names,
      fun _ _ _ _ hfault => .inl (Validation.isVerdict_of_sorting hcodes hfault)⟩

theorem declared_of_breaks (h : HandlerRules g.dateFormat rules)
    (hcodes : isInternalCode g.codes = false) {codes : String} {data : Table Value}
    {e : String × Rule} (he : e ∈ rules.prepare (some g))
    (hbreaks : Validation.Breaks codes "" e.1 e.2 data) :
    ∃ r, (e.1, r) ∈ rules ∧ e.2 = r.prepare (some g) := by
  obtain ⟨names, hmem⟩ := RuleMap.mem_prepare_iff (g := some g) h.names h.explicit
  obtain ⟨v, -, hcustom⟩ := hbreaks
  rcases (hmem _).mp he with rfl | rfl | hdeclared | rfl
  · cases hcustom
  · cases hcustom
  · exact hdeclared
  · exact absurd (Validation.isVerdict_of_sorting hcodes hcustom) Filter.not_isVerdict_brokenRow

end HandlerRules

namespace Request

open Errors

open Validation

def isSent (bags : Bags) (source : String) (rules : RuleMap) (name : String) : Bool :=
  (Table.get? rules name).any fun r => (sent? bags source name r.spec).isSome

structure BrokenRow (bags : Bags) (source : String) (rules : RuleMap) (name : String) (r : Rule)
    (s : String) : Prop where
  declared : (name, r) ∈ rules
  plain : r.spec.isPlainString r.spec.type = true
  several : r.spec.listAllowed ≠ some false
  takesPart : TakesPart (isSent bags source rules) (specs rules) r.spec
  sent : sent? bags source name r.spec = some (.str s)
  filled : s ≠ ""
  fits : LengthFits r.spec s
  broken : ∃ why, Text.splitRow s.toList = .error why

def HasBrokenRow (bags : Bags) (source : String) (rules prepared : RuleMap) : Prop :=
  strays bags prepared source = [] ∧ ∃ name r s, BrokenRow bags source rules name r s

theorem not_hasBrokenRow_of_lines {bags : Bags} {source : String} {rules prepared : RuleMap}
    (h : ∀ name r s, (name, r) ∈ rules → sent? bags source name r.spec = some (.str s) →
      s.toList.any Text.isBreak = false ∧ s.length ≤ Text.fieldLimit) :
    ¬HasBrokenRow bags source rules prepared := by
  rintro ⟨-, name, r, s, hs⟩
  obtain ⟨hbreak, hlength⟩ := h name r s hs.declared hs.sent
  have hline : ∀ c ∈ s.toList, Text.isBreak c = false := by
    intro c hc
    exact Bool.eq_false_iff.mpr (List.any_eq_false.mp hbreak c hc)
  obtain ⟨fields, hfields⟩ := Text.splitRow_of_line hline hlength
  obtain ⟨why, hwhy⟩ := hs.broken
  cases hfields.symm.trans hwhy

section Validation

variable {g : Filter.Grammar} {rules : RuleMap} {bags : Bags} {source codes : String}
  {data : Table Value} {ctx : Context}

theorem spec_prepare_of_mem (hrules : HandlerRules g.dateFormat rules) {e : String × RuleSpec}
    (he : e ∈ specs rules) : (e.1, e.2.prepared) ∈ specs (rules.prepare (some g)) := by
  obtain ⟨⟨name, r⟩, hr, rfl⟩ := List.mem_map.mp he
  exact List.mem_map.mpr
    ⟨_, hrules.mem_prepare_of_mem hr, by rw [spec_prepare (hrules.fields _ hr)]⟩

theorem has_prepare (hrules : HandlerRules g.dateFormat rules)
    (h : extract none bags (rules.prepare (some g)) source = .ok data) :
    ∀ e ∈ specs rules, data.has e.1 = isSent bags source rules e.1 := by
  intro e he
  have hn := nodup_specs (RuleMap.nodup_names_prepare (some g) rules)
  obtain ⟨⟨name, r⟩, hr, rfl⟩ := List.mem_map.mp he
  have hsent : isSent bags source rules name = (sent? bags source name r.spec).isSome := by
    rw [isSent, Table.get?_of_mem hrules.names hr]
    rfl
  have hhas := has_extractFrom hn (extractFrom_of_extract h) (spec_prepare_of_mem hrules he)
  exact hhas.trans hsent.symm

theorem takesPart_prepare_iff (hrules : HandlerRules g.dateFormat rules)
    (h : extract none bags (rules.prepare (some g)) source = .ok data) (spec : RuleSpec) :
    TakesPart data.has (specs (rules.prepare (some g))) spec.prepared ↔
      TakesPart (isSent bags source rules) (specs rules) spec := by
  obtain ⟨names, hprepare⟩ := RuleMap.prepare_eq_append (g := some g) hrules.names hrules.explicit
  have hspecs : specs (rules.map fun e => (e.1, e.2.prepare (some g))) =
      (specs rules).map fun e => (e.1, e.2.prepared) := by
    simp only [specs, List.map_map]
    apply List.map_congr_left
    intro e he
    exact Prod.ext rfl (spec_prepare (hrules.fields e he))
  have hchosen : ∀ groupId o, Chosen data.has groupId (specs (rules.prepare (some g))) o ↔
      Chosen (isSent bags source rules) groupId (specs rules) o := by
    intro groupId o
    have hsplit : specs (rules.prepare (some g)) =
        ("limit", (Rule.counting "limit").spec) :: ("offset", (Rule.counting "offset").spec) ::
          ((specs rules).map fun e => (e.1, e.2.prepared)) ++
          [("orderBy", (Rule.sorting.withColumns (some g) names).spec)] := by
      rw [← hspecs, hprepare]
      simp [specs]
    -- the fields that every search has are in no group
    rw [hsplit, chosen_concat_of_ungrouped rfl,
      chosen_cons_of_not_member (not_member_of_ungrouped rfl),
      chosen_cons_of_not_member (not_member_of_ungrouped rfl)]
    exact chosen_map (f := RuleSpec.prepared) (fun _ => rfl) (has_prepare hrules h)
  exact forall_congr' fun c => imp_congr_right fun _ =>
    exists_congr fun o => and_congr_left' (hchosen c.groupId o)

theorem breaks_iff_brokenRow (hcodes : isInternalCode g.codes = false)
    (hrules : HandlerRules g.dateFormat rules)
    (h : extract none bags (rules.prepare (some g)) source = .ok data) {name : String} {r : Rule}
    (hr : (name, r) ∈ rules) :
    (TakesPart data.has (specs (rules.prepare (some g))) (r.prepare (some g)).spec ∧
        Validation.Breaks codes "" name (r.prepare (some g)) data) ↔
      ∃ s, BrokenRow bags source rules name r s := by
  have hfield := hrules.fields _ hr
  have hn := nodup_specs (RuleMap.nodup_names_prepare (some g) rules)
  have hmem : (name, r.spec.prepared) ∈ specs (rules.prepare (some g)) :=
    spec_prepare_of_mem hrules (List.mem_map.mpr ⟨_, hr, rfl⟩)
  have hget : ∀ s : String, r.spec.isPlainString r.spec.type = true → s ≠ "" →
      (data.get? name = some (.str s) ↔ sent? bags source name r.spec = some (.str s)) :=
    fun s hplain hs =>
      get?_text_iff hn (extractFrom_of_extract h) hmem (base?_prepared_of_plain hplain) hs
  rw [spec_prepare hfield, takesPart_prepare_iff hrules h, breaks_prepare_iff hcodes hfield]
  constructor
  · rintro ⟨htakes, hplain, hlist, s, hs, hne, hfits, hsplit⟩
    exact ⟨s, hr, hplain, hlist, htakes, (hget s hplain hne).mp hs, hne, hfits, hsplit⟩
  · rintro ⟨s, -, hplain, hlist, htakes, hs, hne, hfits, hsplit⟩
    exact ⟨htakes, hplain, hlist, s, (hget s hplain hne).mpr hs, hne, hfits, hsplit⟩

theorem any_internal_ofStruct_iff (ctx : Context) (hcodes : isInternalCode g.codes = false)
    (hrules : HandlerRules g.dateFormat rules)
    (h : extract none bags (rules.prepare (some g)) source = .ok data) :
    ∃ errors, ofStruct ⟨ctx, g.codes⟩ (rules.prepare (some g)) data "" = (errors, none) ∧
      (((Errors.ofList errors).any fun e => e.2.isInternal) = true ↔
        ∃ name r s, BrokenRow bags source rules name r s) := by
  have hcodes' : isInternalCode (⟨ctx, g.codes⟩ : Setting).codes = false := hcodes
  obtain ⟨lead, c, heq, hlead, hadmits⟩ := ofStruct_eq hcodes' hrules.namedGroup data ""
  have hall := hrules.ordinary hcodes
  refine ⟨_, heq, ?_⟩
  have hbase : baseOf "" = "" := rfl
  rw [hbase, any_internal_iff hlead ((paths_ofFields hcodes' hall).nodup
    (RuleMap.nodup_names_prepare (some g) rules)), exists_internal_ofFields_iff hcodes' hall]
  constructor
  · rintro ⟨e, he, hc, hbreaks⟩
    obtain ⟨r, hr, hprepared⟩ := hrules.declared_of_breaks hcodes he hbreaks
    rw [hprepared] at hc hbreaks
    have htakes := (hadmits _ (hprepared ▸ hrules.namedGroup e he)).mp hc
    obtain ⟨s, hs⟩ := (breaks_iff_brokenRow hcodes hrules h hr).mp ⟨htakes, hbreaks⟩
    exact ⟨e.1, r, s, hs⟩
  · rintro ⟨name, r, s, hs⟩
    obtain ⟨htakes, hbreaks⟩ := (breaks_iff_brokenRow hcodes hrules h hs.declared).mpr ⟨s, hs⟩
    have hmem := hrules.mem_prepare_of_mem hs.declared
    exact ⟨_, hmem, (hadmits _ (hrules.namedGroup _ hmem)).mpr htakes, hbreaks⟩

end Validation

section Handle

variable {g : Filter.Grammar} {rules : RuleMap} {bags : Bags} {method : String}
  {data : Table Value} {ctx : Context}

theorem validated_cases (hcodes : isInternalCode g.codes = false)
    (hrules : HandlerRules g.dateFormat rules) (bags : Bags) (method : String) (ctx : Context) :
    (¬HasBrokenRow bags (defaultSource method) rules (rules.prepare (some g)) ∧
      ((∃ data, validated none bags (rules.prepare (some g)) method ctx g.codes = .ok data) ∨
        ∃ details, validated none bags (rules.prepare (some g)) method ctx g.codes =
          .error (.rejected (.invalidFields details)))) ∨
    HasBrokenRow bags (defaultSource method) rules (rules.prepare (some g)) ∧
      ∃ details, validated none bags (rules.prepare (some g)) method ctx g.codes =
        .error (.misdeclared (.invalidRules details)) := by
  obtain ⟨data, hdata⟩ := extract_total bags (RuleMap.prepare_ne_nil (some g) rules)
    (defaultSource method)
  by_cases hstrays : strays bags (rules.prepare (some g)) (defaultSource method) = []
  · obtain ⟨errors, herrors, hinternal⟩ := any_internal_ofStruct_iff ctx hcodes hrules hdata
    have hvalidate : (Validator.validate { context := ctx, codes := g.codes } (.map data)
        (some (rules.prepare (some g))) "").1 = .ok (Errors.ofList errors) := by
      simp only [Validator.validate, partsOf_map, Validator.setting, herrors]
    rw [validated_of_checked hdata hstrays hvalidate]
    by_cases hbroken : ∃ name r s, BrokenRow bags (defaultSource method) rules name r s
    · obtain ⟨details, hraise⟩ := raise_of_internal (hinternal.mpr hbroken)
      exact .inr ⟨⟨hstrays, hbroken⟩, details, by rw [hraise]; rfl⟩
    · refine .inl ⟨fun h => hbroken h.2, ?_⟩
      rcases raise_of_not_internal (Bool.eq_false_iff.mpr fun h => hbroken (hinternal.mp h)) with
        hraise | ⟨details, hraise⟩
      · exact .inl ⟨data, by rw [hraise]; rfl⟩
      · exact .inr ⟨details, by rw [hraise]; rfl⟩
  · exact .inl ⟨fun h => hstrays h.1, .inr (validated_of_strays ctx g.codes hdata hstrays)⟩

namespace Handler

variable {config : Config}

theorem handle_cases (table select : Option String)
    (hcodes : isInternalCode config.requestCodes = false)
    (hrules : HandlerRules config.defaultDateFormat rules) (bags : Bags) (method : String)
    (ctx : Context) :
    (¬HasBrokenRow bags (defaultSource method) rules (make rules table select config).rules ∧
      ((∃ q, (make rules table select config).handle none bags method ctx none = .ok q) ∨
        ∃ details, (make rules table select config).handle none bags method ctx none =
          .error (.rejected (.invalidFields details)))) ∨
    HasBrokenRow bags (defaultSource method) rules (make rules table select config).rules ∧
      ∃ details, (make rules table select config).handle none bags method ctx none =
        .error (.misdeclared (.invalidRules details)) := by
  have hg : HandlerRules (⟨config.requestCodes, config.defaultDateFormat⟩ :
      Filter.Grammar).dateFormat rules := hrules
  unfold handle make
  dsimp only
  rcases validated_cases hcodes hg bags method ctx with
    ⟨hno, ⟨data, hdata⟩ | ⟨details, hdetails⟩⟩ | ⟨hbroken, details, hdetails⟩
  · obtain ⟨hchecked, hn, htext⟩ := checked_search hg.searchRules hdata
    obtain ⟨q, hq⟩ := query_of_checked hg.searchRules hchecked hn htext
      ((Text.nonempty? table).getD config.defaultAlias) select none
    exact .inl ⟨hno, .inl ⟨q, by rw [hdata]; exact hq⟩⟩
  · exact .inl ⟨hno, .inr ⟨details, by rw [hdetails]⟩⟩
  · exact .inr ⟨hbroken, details, by rw [hdetails]⟩

/-- A search request makes a query or is rejected unless it has a broken row, and the rules are
    blamed exactly when it has one. -/
theorem settles_iff (rules : RuleMap) (table select : Option String) (config : Config)
    (hcodes : isInternalCode config.requestCodes = false)
    (hrules : HandlerRules config.defaultDateFormat rules) (bags : Bags) (method : String)
    (ctx : Context) :
    (((∃ q, (make rules table select config).handle none bags method ctx none = .ok q) ∨
        ∃ details, (make rules table select config).handle none bags method ctx none =
          .error (.rejected (.invalidFields details))) ↔
      ¬HasBrokenRow bags (defaultSource method) rules (make rules table select config).rules) ∧
    ((∃ details, (make rules table select config).handle none bags method ctx none =
        .error (.misdeclared (.invalidRules details))) ↔
      HasBrokenRow bags (defaultSource method) rules
        (make rules table select config).rules) := by
  rcases handle_cases table select hcodes hrules bags method ctx with
    ⟨hno, ⟨q, hq⟩ | ⟨details, hdetails⟩⟩ | ⟨hbroken, details, hdetails⟩
  · rw [hq]
    simpa using hno
  · rw [hdetails]
    simpa using hno
  · rw [hdetails]
    simpa using hbroken

theorem handlerField_person : ∀ e ∈ personRules, HandlerField "%Y-%m-%d" e.2 := by
  have himplicit : ∀ e ∈ personRules, isImplicit e.1 = false := by decide
  intro e he
  have hsearch := searchRules_person.fields e he (himplicit e he)
  simp only [personRules, List.mem_cons, List.not_mem_nil, or_false] at he
  rcases he with rfl | rfl
  all_goals
    refine ⟨hsearch, ?_, rfl, .inl rfl, fun _ => ⟨_, rfl⟩, ⟨_, rfl⟩, ?_, ?_⟩
    · intro _ hgroup
      cases hgroup
    · intro henum
      cases henum
    · intro hdate
      cases hdate

theorem handlerRules_person : HandlerRules "%Y-%m-%d" personRules :=
  ⟨by decide, by decide, handlerField_person⟩

theorem person_settles :
    (∃ q, (make personRules none none {}).handle none personBags "GET" {} none = .ok q) ∨
      ∃ details, (make personRules none none {}).handle none personBags "GET" {} none =
        .error (.rejected (.invalidFields details)) := by
  have hno : ¬HasBrokenRow personBags (defaultSource "GET") personRules
      (make personRules none none {}).rules := by
    refine not_hasBrokenRow_of_lines fun name r s hr hs => ?_
    simp only [personRules, List.mem_cons, List.not_mem_nil, or_false, Prod.mk.injEq] at hr
    rcases hr with ⟨rfl, rfl⟩ | ⟨rfl, rfl⟩
    · cases hs
      decide
    · cases hs
      decide
  exact (settles_iff personRules none none {} (by decide) handlerRules_person personBags "GET"
    {}).1.mpr hno

def foldedBags : Bags := [("query", [("name", .str "a\nb")])]

theorem folded_name_blamed : HandlerRules ({} : Config).defaultDateFormat personRules ∧
    ∃ details, (make personRules none none {}).handle none foldedBags "GET" {} none =
      .error (.misdeclared (.invalidRules details)) := by
  refine ⟨handlerRules_person, ?_⟩
  have hblamed : (match (make personRules none none {}).handle none foldedBags "GET" {} none with
      | .error (.misdeclared (.invalidRules _)) => true
      | _ => false) = true := by decide +kernel
  split at hblamed
  next details h => exact ⟨details, h⟩
  next => cases hblamed

end Handler

end Handle

end Request

end FieldRules
