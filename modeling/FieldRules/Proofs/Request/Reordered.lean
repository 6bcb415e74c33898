import FieldRules.Proofs.Request.Strays
import FieldRules.Proofs.Rule.Prepared

namespace FieldRules.Request

/-- Two requests with the same parameters. The bags that are looked at as a whole hold the same
    entries in some order; from any other bag the rules read the same values. -/
structure SameParameters (rules : RuleMap) (source : String) (bags others : Bags) : Prop where
  distinct : ∀ bagName ∈ checkedBags, (Table.names (bag bags bagName)).Nodup
  entries : ∀ bagName ∈ checkedBags, (bag bags bagName).Perm (bag others bagName)
  read : ∀ e ∈ rules, sourceOf e.2.spec source ∉ checkedBags →
    (bag bags (sourceOf e.2.spec source)).get? e.1 =
      (bag others (sourceOf e.2.spec source)).get? e.1

variable {limit : Numeral.DigitLimit} {bags others : Bags} {rules : RuleMap}
  {source method : String} {g : Option Filter.Grammar}

theorem defaultSource_mem (method : String) : defaultSource method ∈ checkedBags := by
  unfold defaultSource
  split <;> decide

theorem source_prepare (g : Option Filter.Grammar) (r : Rule) :
    (r.prepare g).spec.source = r.spec.source := by
  unfold Rule.prepare
  split <;> rfl

theorem source_of_mem_prepare {e : String × Rule} (he : e ∈ rules.prepare g) :
    e.2.spec.source = none ∨ ∃ r, (e.1, r) ∈ rules ∧ e.2.spec.source = r.spec.source := by
  obtain ⟨name, r⟩ := e
  cases RuleMap.origin_of_mem he with
  | declared _ hr => exact .inr ⟨_, hr, source_prepare g _⟩
  | counted _ hr =>
    rcases hr with rfl | hr
    · exact .inl rfl
    · exact .inr ⟨r, hr, rfl⟩
  | sorting hr =>
    rcases hr with rfl | hr
    · exact .inl rfl
    · exact .inr ⟨_, hr, rfl⟩

theorem sourceOf_congr {spec spec' : RuleSpec} (h : spec.source = spec'.source) (source : String) :
    sourceOf spec source = sourceOf spec' source := by
  rw [sourceOf, sourceOf, h]

namespace SameParameters

theorem get?_bag (h : SameParameters rules (defaultSource method) bags others)
    {e : String × Rule} (he : e ∈ rules.prepare g) :
    (bag bags (sourceOf e.2.spec (defaultSource method))).get? e.1 =
      (bag others (sourceOf e.2.spec (defaultSource method))).get? e.1 := by
  by_cases hchecked : sourceOf e.2.spec (defaultSource method) ∈ checkedBags
  · exact Table.get?_of_perm (h.distinct _ hchecked) (h.entries _ hchecked) e.1
  · rcases source_of_mem_prepare he with hnone | ⟨r, hr, hsource⟩
    · rw [sourceOf, hnone] at hchecked
      exact absurd (defaultSource_mem method) hchecked
    · rw [sourceOf_congr hsource] at hchecked ⊢
      exact h.read _ hr hchecked

theorem sent? (h : SameParameters rules (defaultSource method) bags others) :
    ∀ e ∈ (rules.prepare g).map fun e => (e.1, e.2.spec),
      Request.sent? bags (defaultSource method) e.1 e.2 =
        Request.sent? others (defaultSource method) e.1 e.2 := by
  intro e he
  obtain ⟨f, hf, rfl⟩ := List.mem_map.mp he
  rw [Request.sent?, Request.sent?, h.get?_bag hf]

end SameParameters

theorem extractFrom_congr {specs : List (String × RuleSpec)}
    (h : ∀ e ∈ specs, sent? bags source e.1 e.2 = sent? others source e.1 e.2) :
    extractFrom limit bags source specs = extractFrom limit others source specs := by
  induction specs with
  | nil => rfl
  | cons e specs ih =>
    have hrest := ih fun f hf => h f (List.mem_cons_of_mem e hf)
    rw [extractFrom, extractFrom, h e List.mem_cons_self, hrest]

theorem extract_congr (limit : Numeral.DigitLimit) (g : Option Filter.Grammar)
    (h : SameParameters rules (defaultSource method) bags others) :
    extract limit bags (rules.prepare g) (defaultSource method) =
      extract limit others (rules.prepare g) (defaultSource method) := by
  rw [extract, extract, extractFrom_congr h.sent?]

theorem strays_eq_nil_congr (rules : RuleMap) (source : String)
    (h : ∀ bagName ∈ checkedBags, (bag bags bagName).Perm (bag others bagName)) :
    strays bags rules source = [] ↔ strays others rules source = [] := by
  unfold strays
  simp only [List.flatMap_eq_nil_iff]
  refine forall_congr' fun bagName => imp_congr_right fun hbag => forall_congr' fun e => ?_
  rw [(h bagName hbag).mem_iff]

theorem validated_congr (limit : Numeral.DigitLimit) (g : Option Filter.Grammar)
    (h : SameParameters rules (defaultSource method) bags others) (ctx : Context)
    (codes : String) :
    validated limit bags (rules.prepare g) method ctx codes =
        validated limit others (rules.prepare g) method ctx codes ∨
      (∃ details, validated limit bags (rules.prepare g) method ctx codes =
        .error (.rejected (.invalidFields details))) ∧
      ∃ details, validated limit others (rules.prepare g) method ctx codes =
        .error (.rejected (.invalidFields details)) := by
  have hextract := extract_congr limit g h
  have hstrays := strays_eq_nil_congr (rules.prepare g) (defaultSource method) h.entries
  cases hdata : extract limit bags (rules.prepare g) (defaultSource method) with
  | error fault =>
    left
    unfold validated
    dsimp only
    rw [← hextract, hdata]
  | ok data =>
    by_cases hnone : strays bags (rules.prepare g) (defaultSource method) = []
    · left
      unfold validated
      dsimp only
      rw [← hextract, hdata, unknownParameters_eq_nil_iff.mpr hnone,
        unknownParameters_eq_nil_iff.mpr (hstrays.mp hnone)]
    · right
      exact ⟨validated_of_strays ctx codes hdata hnone,
        validated_of_strays ctx codes (hextract ▸ hdata) fun hnil => hnone (hstrays.mpr hnil)⟩

namespace Handler

/-- Requests with the same parameters make the same query, are both rejected, or fail alike. -/
theorem handle_reordered (rules : RuleMap) (table select : Option String) (config : Config)
    (limit : Numeral.DigitLimit) (method : String) (ctx : Context) (extra : Option Tree)
    (bags others : Bags) (h : SameParameters rules (defaultSource method) bags others) :
    (∃ q, (make rules table select config).handle limit bags method ctx extra = .ok q ∧
      (make rules table select config).handle limit others method ctx extra = .ok q) ∨
    (∃ details details',
      (make rules table select config).handle limit bags method ctx extra =
          .error (.rejected (.invalidFields details)) ∧
        (make rules table select config).handle limit others method ctx extra =
          .error (.rejected (.invalidFields details'))) ∨
    ∃ fault, (make rules table select config).handle limit bags method ctx extra = .error fault ∧
      (make rules table select config).handle limit others method ctx extra = .error fault := by
  unfold handle make
  dsimp only
  rcases validated_congr limit (some ⟨config.requestCodes, config.defaultDateFormat⟩) h ctx
    config.requestCodes with
    hsame | ⟨⟨details, hdetails⟩, details', hdetails'⟩
  · rw [← hsame]
    split
    next fault _ => exact .inr (.inr ⟨fault, rfl, rfl⟩)
    next data _ =>
      cases hquery : Search.query limit data _ _ _ _ _ with
      | error fault => exact .inr (.inr ⟨fault, rfl, rfl⟩)
      | ok q => exact .inl ⟨q, rfl, rfl⟩
  · rw [hdetails, hdetails']
    exact .inr (.inl ⟨details, details', rfl, rfl⟩)

def tenantRules : RuleMap :=
  [("name", { spec := {} }), ("nick", { spec := { column := some "t.name" } }),
    ("tenant", { spec := { source := some "headers" } })]

def tenantBags : Bags :=
  [("headers", [("tenant", .str "x"), ("accept", .str "text/html")]),
    ("query", [("name", .str "a"), ("nick", .str "b%")])]

def swappedBags : Bags :=
  [("query", [("nick", .str "b%"), ("name", .str "a")]),
    ("headers", [("host", .str "h"), ("tenant", .str "x")])]

theorem sameParameters_swapped :
    SameParameters tenantRules (defaultSource "GET") tenantBags swappedBags := by
  constructor
  · decide
  · intro bagName hbag
    simp only [checkedBags, List.mem_cons, List.not_mem_nil, or_false] at hbag
    rcases hbag with rfl | rfl
    · exact List.Perm.refl []
    · exact List.Perm.swap _ _ []
  · intro e he hother
    simp only [tenantRules, List.mem_cons, List.not_mem_nil, or_false] at he
    rcases he with rfl | rfl | rfl
    · exact absurd (defaultSource_mem "GET") hother
    · exact absurd (defaultSource_mem "GET") hother
    · rfl

theorem swapped_search :
    SameParameters tenantRules (defaultSource "GET") tenantBags swappedBags ∧
      ∃ q, (make tenantRules none none {}).handle none tenantBags "GET" {} none = .ok q ∧
        (make tenantRules none none {}).handle none swappedBags "GET" {} none = .ok q ∧
        Table.names q.params = [":tname1", ":tname2", ":ttenant1"] := by
  refine ⟨sameParameters_swapped, ?_⟩
  have hnames : ((make tenantRules none none {}).handle none tenantBags "GET" {} none).toOption.map
      (fun q => Table.names q.params) = some [":tname1", ":tname2", ":ttenant1"] := by
    decide +kernel
  rcases handle_reordered tenantRules none none {} none "GET" {} none tenantBags swappedBags
    sameParameters_swapped with
    ⟨q, hq, hswapped⟩ | ⟨details, details', hdetails, -⟩ | ⟨fault, hfault, -⟩
  · rw [hq] at hnames
    exact ⟨q, hq, hswapped, Option.some.inj hnames⟩
  · rw [hdetails] at hnames
    cases hnames
  · rw [hfault] at hnames
    cases hnames

end Handler

end FieldRules.Request
