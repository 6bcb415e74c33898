import FieldRules.Proofs.Validation.GroupErrors

namespace FieldRules

namespace Errors

variable {errors : List FieldError}

theorem ofList_of_nodup (h : (errors.map FieldError.path).Nodup) :
    ofList errors = errors.map fun e => (e.path, e) := by
  have hnames : (Table.names (errors.map fun e => (e.path, e))).Nodup := by
    simpa [Table.names, Function.comp_def] using h
  rw [ofList, Table.ofEntries, Table.merge_of_disjoint hnames (by simp [Table.names]),
    List.nil_append]

theorem toList_ofList (h : (errors.map FieldError.path).Nodup) :
    (ofList errors).toList = errors := by
  rw [ofList_of_nodup h, toList, List.map_map]
  exact List.map_id errors

end Errors

namespace Validation

inductive FailsHere (s : Setting) (t : Struct) : Spot → FieldError → Prop
  | group {spot : Spot} {err : FieldError} : GroupFails s t spot err → FailsHere s t spot err
  | own {e : String × Rule} {index : Option Nat} {fault : Fault} : e ∈ t.rules →
      t.Admits e.2.spec → t.checked s e = .error ⟨index.elim "" indexed, fault⟩ →
        FailsHere s t (.site ⟨e.1, index⟩) (s.errorOf (t.base ++ e.1) (labelOf t.base e.1 e.2.spec)
          (index.elim "" indexed) fault)

def FailsAt (s : Setting) (t : Struct) (loc : Location) (err : FieldError) : Prop :=
  ∃ w, Visits s t loc.sites w ∧ FailsHere s w loc.spot err

def Location.field? : Location → Option String
  | ⟨[], .site a⟩ => some a.name
  | ⟨[], .group _⟩ => none
  | ⟨site :: _, _⟩ => some site.name

/-- What a validation of a struct keeps: all that it writes, each error at a path of its own, one
    for each location that fails. -/
structure KeepsAll (s : Setting) (t : Struct) (errors : Errors) : Prop where
  run : ofStruct s t.rules t.data t.path = (errors.toList, none)
  once : (errors.toList.map FieldError.path).Nodup
  kept : ∀ err ∈ errors.toList, errors.get? err.path = some err
  written : ∀ err, err ∈ errors.toList ↔ ∃ loc, FailsAt s t loc err
  path : ∀ loc err, FailsAt s t loc err → err.path = t.base ++ loc.text
  unique : ∀ loc err loc' err', FailsAt s t loc err → FailsAt s t loc' err' →
    err.path = err'.path → loc = loc' ∧ err = err'
  count : ∃ locs : List Location, locs.Nodup ∧ (∀ loc, loc ∈ locs ↔ ∃ err, FailsAt s t loc err) ∧
    errors.length = locs.length

variable {s : Setting} {t u w : Struct} {spot : Spot} {loc loc' : Location} {err err' : FieldError}
  {e f : String × Rule} {site : Site} {rules : RuleMap} {shape : Shape} {path : String} {v : Value}
  {errors : List FieldError}

theorem suffix_of_checkItems {codes : String} {type : Option DeclaredType} {i : Nat}
    {vs : List Value} {stop : Stop} (h : checkItems codes type i vs = some stop) :
    ∃ j, stop.suffix = indexed j := by
  induction vs generalizing i with
  | nil => cases h
  | cons v vs ih =>
    rw [checkItems] at h
    split at h
    · exact ⟨i, congrArg Stop.suffix (Option.some.inj h).symm⟩
    · exact ih h

theorem suffix_of_checkValue {codes label name : String} {spec : RuleSpec}
    {custom : Option (Hook Check)} {data : Table Value} {stop : Stop}
    (h : checkValue codes spec shape custom label name data v = .error stop) :
    ∃ index : Option Nat, stop.suffix = index.elim "" indexed := by
  unfold checkValue at h
  split at h
  · exact ⟨none, congrArg Stop.suffix (Except.error.inj h).symm⟩
  · dsimp only at h
    split at h
    next hitems =>
      obtain ⟨j, hj⟩ := suffix_of_checkItems hitems
      exact ⟨some j, (congrArg Stop.suffix (Except.error.inj h).symm).trans hj⟩
    · split at h
      · exact ⟨none, congrArg Stop.suffix (Except.error.inj h).symm⟩
      · cases h

theorem suffix_of_checkField {codes label name : String} {spec : RuleSpec}
    {custom : Option (Hook Check)} {requiredWhen : Option (Hook Requirement)} {data : Table Value}
    {stop : Stop}
    (h : checkField codes spec shape custom requiredWhen label name data = .error stop) :
    ∃ index : Option Nat, stop.suffix = index.elim "" indexed := by
  unfold checkField at h
  split at h
  · exact ⟨none, congrArg Stop.suffix (Except.error.inj h).symm⟩
  · split at h
    · exact ⟨none, congrArg Stop.suffix (Except.error.inj h).symm⟩
    · cases h
    · split at h
      next hvalue =>
        obtain ⟨index, hindex⟩ := suffix_of_checkValue hvalue
        exact ⟨index, (congrArg Stop.suffix (Except.error.inj h).symm).trans hindex⟩
      · cases h

theorem indexed_injective {i j : Nat} (h : indexed i = indexed j) : i = j := by
  have hlist := congrArg String.toList h
  simp only [indexed, String.toList_append] at hlist
  have hdigits := List.append_cancel_left (List.append_cancel_right hlist)
  simp only [Nat.toString_eq_ofList_toDigits, String.toList_ofList] at hdigits
  exact Numeral.toDigits_injective hdigits

theorem nodup_structsIn (shape : Shape) (path : String) (v : Value) :
    (structsIn shape path v).Pairwise fun p q => p.2 ≠ q.2 := by
  have hitems : ∀ i vs, (structsIn.items path i vs).Pairwise fun p q => p.2 ≠ q.2 := by
    intro i vs
    induction vs generalizing i with
    | nil => exact .nil
    | cons v vs ih =>
      refine .cons ?_ (ih (i + 1))
      rintro ⟨inner, other⟩ hq hpath
      obtain ⟨j, -, -, -, hother⟩ := mem_structsIn_items.mp hq
      have := indexed_injective ((String.append_right_inj _).mp (hpath.trans hother.symm))
      omega
  unfold structsIn
  split
  · exact List.pairwise_singleton _ _
  · exact hitems 0 _
  · exact .nil

theorem Struct.mem_errors_iff (h : ∃ c, t.settled? = some c) : err ∈ t.errors s ↔
    err ∈ t.groupErrors s ∨ ∃ e ∈ t.rules, t.Admits e.2.spec ∧ err ∈ t.fieldErrors s e := by
  obtain ⟨c, hc⟩ := h
  rw [errors, ofStruct_of_settled hc]
  simp only [List.mem_append, List.mem_flatMap, List.mem_filter, and_assoc,
    admits_iff_of_settled hc]

theorem FailsHere.path_eq (h : FailsHere s t spot err) : err.path = t.base ++ spot.text := by
  cases h with
  | group h => exact h.path_eq
  | own => rw [path_errorOf_suffix, String.append_assoc]; rfl

theorem FailsHere.plain (hnames : ∀ e ∈ t.rules, FieldName e.1) (h : FailsHere s t spot err) :
    spot.Plain := by
  cases h with
  | group h => exact h.plain hnames
  | own he => exact hnames _ he

theorem FailsAt.path_eq (hnamed : WellNamed t.rules) (h : FailsAt s t loc err) :
    err.path = t.base ++ loc.text := by
  obtain ⟨w, hvisits, hfails⟩ := h
  rw [hfails.path_eq, hvisits.base_eq hnamed, String.append_assoc]
  rfl

theorem FailsAt.plain (hnamed : WellNamed t.rules) (h : FailsAt s t loc err) : loc.Plain := by
  obtain ⟨w, hvisits, hfails⟩ := h
  exact ⟨hvisits.fieldNames hnamed, hfails.plain (hvisits.wellNamed hnamed).fieldNames⟩

theorem FailsAt.location_unique (hnamed : WellNamed t.rules) (h : FailsAt s t loc err)
    (h' : FailsAt s t loc' err') (hpath : err.path = err'.path) : loc = loc' := by
  rw [h.path_eq hnamed, h'.path_eq hnamed, String.append_right_inj] at hpath
  exact Location.text_unique (h.plain hnamed) (h'.plain hnamed) hpath

theorem Enters.failsAt (h : Enters s t site u) (hfails : FailsAt s u loc err) :
    FailsAt s t ⟨site :: loc.sites, loc.spot⟩ err := by
  obtain ⟨w, hvisits, hfails⟩ := hfails
  exact ⟨w, .part h hvisits, hfails⟩

theorem FailsHere.mem (hnamed : WellNamed t.rules) (h : FailsHere s t spot err) :
    err ∈ t.errors s := by
  rw [Struct.mem_errors_iff (Struct.settled_of_wellNamed hnamed)]
  cases h with
  | group h => exact .inl ((Struct.mem_groupErrors_iff hnamed.textGroups).mpr ⟨_, h⟩)
  | @own e index fault he hadmits hchecked =>
    refine .inr ⟨e, he, hadmits, ?_⟩
    rw [Struct.fieldErrors_of_error hchecked]
    exact List.mem_singleton.mpr rfl

theorem FailsAt.mem (hnamed : WellNamed t.rules) (h : FailsAt s t loc err) : err ∈ t.errors s := by
  obtain ⟨w, hvisits, hfails⟩ := h
  have hnamed := hvisits.wellNamed hnamed
  exact (hvisits.errors_contained (Struct.settled_of_wellNamed hnamed)).subset (hfails.mem hnamed)

theorem exists_failsAt_of_field (hnested : WellNamed e.2.nestedRules)
    (hparts : ∀ data path, ∀ err ∈ (Struct.mk e.2.nestedRules data path).errors s,
      ∃ loc, FailsAt s ⟨e.2.nestedRules, data, path⟩ loc err)
    (he : e ∈ t.rules) (hadmits : t.Admits e.2.spec) (h : err ∈ t.fieldErrors s e) :
    ∃ loc, FailsAt s t loc err ∧ loc.field? = some e.1 := by
  cases hchecked : t.checked s e with
  | error stop =>
    rw [Struct.fieldErrors_of_error hchecked] at h
    obtain rfl := List.mem_singleton.mp h
    obtain ⟨suffix, fault⟩ := stop
    obtain ⟨index, rfl⟩ := suffix_of_checkField hchecked
    exact ⟨⟨[], .site ⟨e.1, index⟩⟩, ⟨t, .here, .own he hadmits hchecked⟩, rfl⟩
  | ok found =>
    cases found with
    | none =>
      rw [Struct.fieldErrors_of_empty hchecked] at h
      cases h
    | some v =>
      rw [Struct.fieldErrors_of_checked hchecked hnested.keys, List.mem_flatMap] at h
      obtain ⟨⟨inner, path⟩, hp, herr⟩ := h
      obtain ⟨index, hpart, rfl⟩ := exists_partAt hp
      obtain ⟨loc, hloc⟩ := hparts _ _ _ herr
      exact ⟨_, (Enters.intro he hadmits hchecked hpart).failsAt hloc, rfl⟩

theorem exists_failsAt (hnamed : WellNamed rules) (data : Table Value) (path : String) :
    ∀ err ∈ (Struct.mk rules data path).errors s, ∃ loc, FailsAt s ⟨rules, data, path⟩ loc err := by
  induction hnamed generalizing data path with
  | @intro rules hnodup hnames htext hnested ih =>
    intro err herr
    generalize ht : Struct.mk rules data path = t at herr ⊢
    obtain rfl : t.rules = rules := ht ▸ rfl
    have hsettled := Struct.settled_of_wellNamed (.intro hnodup hnames htext hnested)
    rcases (Struct.mem_errors_iff hsettled).mp herr with hgroup | ⟨e, he, hadmits, hfield⟩
    · obtain ⟨spot, hfails⟩ := (Struct.mem_groupErrors_iff htext).mp hgroup
      exact ⟨⟨[], spot⟩, t, .here, .group hfails⟩
    · obtain ⟨loc, hloc, -⟩ :=
        exists_failsAt_of_field (hnested e he) (ih e he) he hadmits hfield
      exact ⟨loc, hloc⟩

theorem nodup_fieldErrors (hnamed : WellNamed t.rules)
    (hparts : ∀ data path, (((Struct.mk e.2.nestedRules data path).errors s).map
      FieldError.path).Nodup)
    (he : e ∈ t.rules) (hadmits : t.Admits e.2.spec) :
    ((t.fieldErrors s e).map FieldError.path).Nodup := by
  have hnested : WellNamed e.2.nestedRules := hnamed.nested e he
  cases hchecked : t.checked s e with
  | error stop =>
    rw [Struct.fieldErrors_of_error hchecked]
    exact List.nodup_singleton _
  | ok found =>
    cases found with
    | none =>
      rw [Struct.fieldErrors_of_empty hchecked]
      exact .nil
    | some v =>
      rw [Struct.fieldErrors_of_checked hchecked hnested.keys, List.map_flatMap,
        List.nodup_flatMap]
      refine ⟨fun p _ => hparts p.1 p.2, (nodup_structsIn _ _ v).imp_of_mem ?_⟩
      -- a common path would put two items at one index
      rintro ⟨inner, path⟩ ⟨inner', path'⟩ hp hp' hne p hmem hmem'
      obtain ⟨err, herr, rfl⟩ := List.mem_map.mp hmem
      obtain ⟨err', herr', hpath⟩ := List.mem_map.mp hmem'
      obtain ⟨index, hpart, rfl⟩ := exists_partAt hp
      obtain ⟨index', hpart', rfl⟩ := exists_partAt hp'
      obtain ⟨loc, hloc⟩ := exists_failsAt hnested _ _ err herr
      obtain ⟨loc', hloc'⟩ := exists_failsAt hnested _ _ err' herr'
      have hsame := FailsAt.location_unique hnamed
        ((Enters.intro he hadmits hchecked hpart).failsAt hloc)
        ((Enters.intro he hadmits hchecked hpart').failsAt hloc') hpath.symm
      have hsite : (⟨e.1, index⟩ : Site) = ⟨e.1, index'⟩ :=
        (List.cons.inj (congrArg Location.sites hsame)).1
      exact hne (congrArg (fun site => t.base ++ Site.text site) hsite)

theorem failsAt_of_mem_fieldErrors (hnamed : WellNamed t.rules) (he : e ∈ t.rules)
    (hadmits : t.Admits e.2.spec) (h : err ∈ t.fieldErrors s e) :
    ∃ loc, FailsAt s t loc err ∧ loc.field? = some e.1 :=
  have hnested := hnamed.nested e he
  exists_failsAt_of_field hnested (fun data path => exists_failsAt hnested data path) he hadmits h

theorem disjoint_fieldErrors (hnamed : WellNamed t.rules) (he : e ∈ t.rules) (hf : f ∈ t.rules)
    (hadmits : t.Admits e.2.spec) (hadmits' : t.Admits f.2.spec) (hne : e.1 ≠ f.1) :
    List.Disjoint ((t.fieldErrors s e).map FieldError.path)
      ((t.fieldErrors s f).map FieldError.path) := by
  intro p hmem hmem'
  obtain ⟨err, herr, rfl⟩ := List.mem_map.mp hmem
  obtain ⟨err', herr', hpath⟩ := List.mem_map.mp hmem'
  obtain ⟨loc, hloc, hfield⟩ := failsAt_of_mem_fieldErrors hnamed he hadmits herr
  obtain ⟨loc', hloc', hfield'⟩ := failsAt_of_mem_fieldErrors hnamed hf hadmits' herr'
  obtain rfl := hloc.location_unique hnamed hloc' hpath.symm
  exact hne (Option.some.inj (hfield.symm.trans hfield'))

theorem disjoint_groupErrors (hnamed : WellNamed t.rules) (he : e ∈ t.rules)
    (hadmits : t.Admits e.2.spec) : List.Disjoint ((t.groupErrors s).map FieldError.path)
      ((t.fieldErrors s e).map FieldError.path) := by
  intro p hmem hmem'
  obtain ⟨err, herr, rfl⟩ := List.mem_map.mp hmem
  obtain ⟨err', herr', hpath⟩ := List.mem_map.mp hmem'
  obtain ⟨spot, hfails⟩ := (Struct.mem_groupErrors_iff hnamed.textGroups).mp herr
  obtain ⟨loc, hloc, hfield⟩ := failsAt_of_mem_fieldErrors hnamed he hadmits herr'
  have hgroup : FailsAt s t ⟨[], spot⟩ err := ⟨t, .here, .group hfails⟩
  obtain rfl := hgroup.location_unique hnamed hloc hpath.symm
  cases spot with
  | group id => cases hfield
  | site a =>
    obtain ⟨-, f, hf, hname, hout⟩ := hfails.not_admits hnamed.textGroups
    have hsame : e = f := List.inj_on_of_nodup_map hnamed.nodup he hf
      ((Option.some.inj hfield).symm.trans hname.symm)
    exact hout (hsame ▸ hadmits)

theorem nodup_errors (hnamed : WellNamed rules) (data : Table Value) (path : String) :
    (((Struct.mk rules data path).errors s).map FieldError.path).Nodup := by
  induction hnamed generalizing data path with
  | @intro rules hnodup hnames htext hnested ih =>
    have hnamed : WellNamed rules := .intro hnodup hnames htext hnested
    generalize ht : Struct.mk rules data path = t
    obtain rfl : t.rules = rules := ht ▸ rfl
    obtain ⟨c, hc⟩ := Struct.settled_of_wellNamed hnamed
    have hfields : t.rules.Pairwise fun e f => e.1 ≠ f.1 := List.pairwise_map.mp hnodup
    have hadmits : ∀ e ∈ t.rules.filter fun e => c.admits e.2.spec,
        e ∈ t.rules ∧ t.Admits e.2.spec := by
      intro e he
      obtain ⟨he, hadmits⟩ := List.mem_filter.mp he
      exact ⟨he, c, hc, hadmits⟩
    rw [Struct.errors, Struct.ofStruct_of_settled hc, List.map_append, List.map_flatMap,
      List.nodup_append']
    refine ⟨Struct.nodup_groupErrors hnamed, List.nodup_flatMap.mpr ⟨?_, ?_⟩, ?_⟩
    · intro e he
      obtain ⟨he, hadmits⟩ := hadmits e he
      exact nodup_fieldErrors hnamed (ih e he) he hadmits
    · refine (hfields.sublist List.filter_sublist).imp_of_mem fun {e f} he hf hne => ?_
      exact disjoint_fieldErrors hnamed (hadmits e he).1 (hadmits f hf).1 (hadmits e he).2
        (hadmits f hf).2 hne
    · intro p hmem hmem'
      obtain ⟨e, he, hmem'⟩ := List.mem_flatMap.mp hmem'
      exact disjoint_groupErrors hnamed (hadmits e he).1 (hadmits e he).2 hmem hmem'

theorem exists_locations (h : ∀ err ∈ errors, ∃ loc, FailsAt s t loc err) :
    ∃ found : List (Location × FieldError), found.map Prod.snd = errors ∧
      ∀ p ∈ found, FailsAt s t p.1 p.2 := by
  induction errors with
  | nil => exact ⟨[], rfl, by simp⟩
  | cons err errors ih =>
    obtain ⟨⟨loc, hloc⟩, hrest⟩ := List.forall_mem_cons.mp h
    obtain ⟨found, rfl, hfound⟩ := ih hrest
    exact ⟨(loc, err) :: found, rfl, List.forall_mem_cons.mpr ⟨hloc, hfound⟩⟩

theorem mem_errors_iff_failsAt (hnamed : WellNamed t.rules) :
    err ∈ t.errors s ↔ ∃ loc, FailsAt s t loc err :=
  ⟨exists_failsAt hnamed t.data t.path err, fun ⟨_, hloc⟩ => hloc.mem hnamed⟩

theorem count_errors (s : Setting) (hnamed : WellNamed t.rules) : ∃ locs : List Location,
    locs.Nodup ∧ (∀ loc, loc ∈ locs ↔ ∃ err, FailsAt s t loc err) ∧
      (t.errors s).length = locs.length := by
  obtain ⟨found, hfound, hfails⟩ := exists_locations fun err herr =>
    (mem_errors_iff_failsAt (s := s) hnamed).mp herr
  refine ⟨found.map Prod.fst, ?_, ?_, by rw [← hfound, List.length_map, List.length_map]⟩
  · have hpaths : (found.map Prod.fst).map (fun loc => t.base ++ loc.text) =
        (t.errors s).map FieldError.path := by
      rw [← hfound, List.map_map, List.map_map]
      exact List.map_congr_left fun p hp => ((hfails p hp).path_eq hnamed).symm
    exact .of_map _ (hpaths ▸ nodup_errors hnamed t.data t.path)
  · intro loc
    rw [List.mem_map]
    constructor
    · rintro ⟨p, hp, rfl⟩
      exact ⟨p.2, hfails p hp⟩
    · rintro ⟨err, hloc⟩
      have herr : err ∈ found.map Prod.snd := hfound ▸ hloc.mem hnamed
      obtain ⟨p, hp, rfl⟩ := List.mem_map.mp herr
      exact ⟨p, hp, (hfails p hp).location_unique hnamed hloc rfl⟩

theorem keepsAll_of_wellNamed (s : Setting) (hnamed : WellNamed t.rules) :
    KeepsAll s t (Errors.ofList (t.errors s)) := by
  have hnodup : ((t.errors s).map FieldError.path).Nodup := nodup_errors hnamed t.data t.path
  have hlist : Errors.toList (Errors.ofList (t.errors s)) = t.errors s :=
    Errors.toList_ofList hnodup
  have hunique : ∀ err ∈ t.errors s, ∀ err' ∈ t.errors s, err.path = err'.path → err = err' :=
    fun err herr err' herr' => List.inj_on_of_nodup_map hnodup herr herr'
  obtain ⟨c, hc⟩ := Struct.settled_of_wellNamed hnamed
  refine ⟨?_, by rwa [hlist], ?_, ?_, fun loc err hloc => hloc.path_eq hnamed, ?_, ?_⟩
  · rw [hlist, Struct.errors, Struct.ofStruct_of_settled hc]
  · rw [hlist]
    exact fun err herr => (Errors.get?_ofList_iff hunique).mpr ⟨herr, rfl⟩
  · rw [hlist]
    exact fun err => mem_errors_iff_failsAt hnamed
  · intro loc err loc' err' hloc hloc' hpath
    exact ⟨hloc.location_unique hnamed hloc' hpath,
      hunique err (hloc.mem hnamed) err' (hloc'.mem hnamed) hpath⟩
  · have hlength : (Errors.ofList (t.errors s)).length = (t.errors s).length :=
      (List.length_map Prod.snd).symm.trans (congrArg List.length hlist)
    rw [hlength]
    exact count_errors s hnamed

end Validation

open Validation

/-- A validation loses no error: under rules with names that a path can be read from, each error
    is written at a path of its own, which tells the location that fails, and is kept there. -/
theorem Validator.validate_keeps (v : Validator) {rules : RuleMap} (hnamed : WellNamed rules)
    (data : Value) (parent : String) :
    ∃ errors, (v.validate data (some rules) parent).1 = .ok errors ∧
      KeepsAll v.setting ⟨rules, partsOf data, parent⟩ errors := by
  refine ⟨_, v.validate_of_settled (Struct.settled_of_wellNamed hnamed), ?_⟩
  rw [partsOf_eq_fields]
  exact keepsAll_of_wellNamed v.setting hnamed

def itemRules : RuleMap := [("sku", { spec := { required := some true } })]

def orderRules : RuleMap :=
  [("items", {
    spec := { type := some (.known .array), elementType := some (.known .object) }
    nested := some itemRules }),
  ("card", { spec := { choiceGroup := some ⟨.str "payment", .int 1, true⟩ } }),
  ("cash", { spec := { choiceGroup := some ⟨.str "payment", .int 2, true⟩ } }),
  ("van", { spec := { choiceGroup := some ⟨.str "shipping", .str "van", true⟩ } }),
  ("tags", {
    spec := { type := some (.known .array), elementType := some (.known .string) } })]

def orderData : Value :=
  .map [("cash", .str "exact"), ("card", .str "4711"), ("tags", .list [.str "gift", .int 3]),
    ("items", .list [.map [("sku", .int 5)], .map [("count", .int 2)]])]

theorem wellNamed_itemRules : WellNamed itemRules :=
  .intro (by decide) (by decide) (by simp [itemRules, TextGroup])
    (by simp [itemRules, Rule.nestedRules, wellNamed_nil])

theorem wellNamed_orderRules : WellNamed orderRules :=
  .intro (by decide) (by decide) (by simp [orderRules, TextGroup])
    (by simp [orderRules, Rule.nestedRules, wellNamed_nil, wellNamed_itemRules])

theorem order_errors_kept : WellNamed orderRules ∧
    ∃ errors, (Validator.validate {} orderData (some orderRules) "").1 = .ok errors ∧
      KeepsAll {} ⟨orderRules, Validator.partsOf orderData, ""⟩ errors ∧
      Table.names errors =
        ["cash", "_choice_group_shipping", "items[0].sku", "items[1].sku", "tags[1]"] := by
  refine ⟨wellNamed_orderRules, ?_⟩
  obtain ⟨errors, hok, hkeeps⟩ := Validator.validate_keeps {} wellNamed_orderRules orderData ""
  have hnames : ((Validator.validate {} orderData (some orderRules) "").1.toOption.map
      Table.names) = some
        ["cash", "_choice_group_shipping", "items[0].sku", "items[1].sku", "tags[1]"] := by
    decide +kernel
  rw [hok] at hnames
  exact ⟨errors, hok, hkeeps, Option.some.inj hnames⟩

end FieldRules
