import FieldRules.Rule.Basic
import FieldRules.Proofs.Request.Address
import FieldRules.Request.Unknown

namespace FieldRules.Rule

theorem sizeOf_lt_of_nested {r : Rule} {e : String × Rule} (he : e ∈ r.nestedRules) :
    sizeOf e.2 < sizeOf r := by
  obtain ⟨spec, custom, requiredWhen, callback, nested⟩ := r
  cases nested with
  | none => cases he
  | some rules =>
    have hmem : sizeOf e < sizeOf rules := List.sizeOf_lt_of_mem he
    have hpair : sizeOf e.2 < sizeOf e := by
      obtain ⟨name, r⟩ := e
      simp only [Prod.mk.sizeOf_spec]
      omega
    simp only [mk.sizeOf_spec, Option.some.sizeOf_spec]
    omega

@[elab_as_elim]
theorem nested_induction {motive : Rule → Prop}
    (step : ∀ r, (∀ e ∈ r.nestedRules, motive e.2) → motive r) (r : Rule) : motive r :=
  step r fun e _ => nested_induction step e.2
termination_by sizeOf r
decreasing_by exact sizeOf_lt_of_nested ‹_›

end FieldRules.Rule

namespace FieldRules.Request

variable {bags : Bags} {rules : RuleMap} {source path : String} {ctx : Context} {spec : RuleSpec}
  {r : Rule} {v : Value} {stray : Stray}

/-- The maps below a field in which names are checked: the value itself when its rule has no
    element type, or the items when the element type has parts. Only arrays are declared with an
    element type. -/
inductive Descends (spec : RuleSpec) : Value → List Step → Table Value → Prop where
  | itself {b : BaseType} {entries : Table Value} (hbase : spec.base? = some b)
      (hparts : b.hasParts = true) (hwhole : spec.elementType = none) :
      Descends spec (.map entries) [] entries
  | item {b c : BaseType} {v : Value} {items : List Value} {i : Nat} {entries : Table Value}
      (hbase : spec.base? = some b) (hparts : b.hasParts = true)
      (helement : spec.elementType = some (.known c)) (hitem : c.hasParts = true)
      (hitems : v.items? = some items) (hi : items[i]? = some (.map entries)) :
      Descends spec v [.item i] entries

inductive StrayBelow : Rule → Value → List Step → Prop where
  | undeclared {r : Rule} {v w : Value} {lead : List Step} {entries : Table Value} {name : String}
      (hnested : r.hasNested = true) (hmap : Descends r.spec v lead entries)
      (he : (name, w) ∈ entries) (hrule : Table.get? r.nestedRules name = none) :
      StrayBelow r v (lead ++ [.entry name])
  | deeper {r part : Rule} {v w : Value} {lead steps : List Step} {entries : Table Value}
      {name : String} (hmap : Descends r.spec v lead entries) (he : (name, w) ∈ entries)
      (hrule : Table.get? r.nestedRules name = some part) (hbelow : StrayBelow part w steps) :
      StrayBelow r v (lead ++ .entry name :: steps)

inductive StrayAt (bags : Bags) (rules : RuleMap) (source : String) : Address → Stray → Prop where
  | undeclared {bagName name : String} {v : Value} (hbag : bagName ∈ checkedBags)
      (he : (name, v) ∈ bag bags bagName) (hrule : Table.get? rules name = none) :
      StrayAt bags rules source ⟨name, []⟩ .unknown
  | misplaced {bagName name : String} {v : Value} {r : Rule} (hbag : bagName ∈ checkedBags)
      (he : (name, v) ∈ bag bags bagName) (hrule : Table.get? rules name = some r)
      (hplace : bagName ≠ sourceOf r.spec source) :
      StrayAt bags rules source ⟨name, []⟩ .misplaced
  | below {bagName name : String} {v : Value} {r : Rule} {steps : List Step}
      (hbag : bagName ∈ checkedBags) (he : (name, v) ∈ bag bags bagName)
      (hrule : Table.get? rules name = some r) (hplace : bagName = sourceOf r.spec source)
      (hbelow : StrayBelow r v steps) :
      StrayAt bags rules source ⟨name, steps⟩ .unknown

theorem extend_entry (path name : String) : extend path [.entry name] = path ++ "." ++ name :=
  (String.append_assoc ..).symm

theorem extend_item (path : String) (i : Nat) :
    extend path [.item i] = path ++ "[" ++ toString i ++ "]" := by
  simp [extend, Step.text, String.append_assoc]

theorem mem_mapItems {i : Nat} {vs : List Value} {e : String × Table Value} :
    e ∈ checkedMaps.mapItems path i vs ↔
      ∃ j, vs[j]? = some (.map e.2) ∧ extend path [.item (i + j)] = e.1 := by
  induction vs generalizing i with
  | nil => simp [checkedMaps.mapItems]
  | cons w vs ih =>
    have htail : (∃ j, (w :: vs)[j]? = some (.map e.2) ∧ extend path [.item (i + j)] = e.1) ↔
        (w = .map e.2 ∧ extend path [.item i] = e.1) ∨
          e ∈ checkedMaps.mapItems path (i + 1) vs := by
      rw [ih]
      constructor
      · rintro ⟨_ | j, hj, hpath⟩
        · exact .inl ⟨by simpa using hj, hpath⟩
        · exact .inr ⟨j, by simpa using hj, by rwa [Nat.add_right_comm, Nat.add_assoc]⟩
      · rintro (⟨rfl, hpath⟩ | ⟨j, hj, hpath⟩)
        · exact ⟨0, rfl, hpath⟩
        · exact ⟨j + 1, by simpa using hj, by rwa [Nat.add_right_comm, Nat.add_assoc] at hpath⟩
    rw [htail]
    obtain ⟨p, entries⟩ := e
    cases w <;> simp [checkedMaps.mapItems, extend_item, eq_comm, and_comm]

theorem checkedMaps_of_whole {b : BaseType} (hbase : spec.base? = some b)
    (hparts : b.hasParts = true) (hwhole : spec.elementType = none) :
    checkedMaps spec path v = match v with
      | .map entries => [(path, entries)]
      | _ => [] := by
  unfold checkedMaps
  rw [hbase, hwhole]
  cases b with
  | object => rfl
  | array => rfl
  | _ => cases hparts

theorem checkedMaps_of_items {b c : BaseType} (hbase : spec.base? = some b)
    (hparts : b.hasParts = true) (helement : spec.elementType = some (.known c))
    (hitem : c.hasParts = true) :
    checkedMaps spec path v = checkedMaps.mapItems path 0 (v.items?.getD []) := by
  unfold checkedMaps
  rw [hbase, helement]
  cases b with
  | object => exact if_pos hitem
  | array => exact if_pos hitem
  | _ => cases hparts

theorem parts_of_mem {t : DeclaredType} {maps : List (String × Table Value)}
    {e : String × Table Value}
    (he : e ∈ match t with
      | .known c => if c.hasParts then maps else []
      | .other _ => []) : ∃ c, t = .known c ∧ c.hasParts = true := by
  cases t with
  | other => cases he
  | known c =>
    dsimp only at he
    split at he
    next hc => exact ⟨c, rfl, hc⟩
    next => cases he

theorem checked_of_mem {e : String × Table Value} (he : e ∈ checkedMaps spec path v) :
    ∃ b, spec.base? = some b ∧ b.hasParts = true ∧ (spec.elementType = none ∨
      ∃ c, spec.elementType = some (.known c) ∧ c.hasParts = true) := by
  unfold checkedMaps at he
  split at he
  next hbase hwhole => exact ⟨_, hbase, rfl, .inl hwhole⟩
  next hbase hwhole => exact ⟨_, hbase, rfl, .inl hwhole⟩
  next hbase helement =>
    obtain ⟨c, rfl, hc⟩ := parts_of_mem he
    exact ⟨_, hbase, rfl, .inr ⟨c, helement, hc⟩⟩
  next hbase helement =>
    obtain ⟨c, rfl, hc⟩ := parts_of_mem he
    exact ⟨_, hbase, rfl, .inr ⟨c, helement, hc⟩⟩
  next => cases he

theorem mem_checkedMaps {e : String × Table Value} :
    e ∈ checkedMaps spec path v ↔
      ∃ lead, Descends spec v lead e.2 ∧ extend path lead = e.1 := by
  constructor
  · intro he
    obtain ⟨b, hbase, hparts, hwhole | ⟨c, helement, hitem⟩⟩ := checked_of_mem he
    · rw [checkedMaps_of_whole hbase hparts hwhole] at he
      cases v with
      | map entries =>
        obtain rfl := List.mem_singleton.mp he
        exact ⟨[], .itself hbase hparts hwhole, rfl⟩
      | _ => cases he
    · rw [checkedMaps_of_items hbase hparts helement hitem, mem_mapItems] at he
      obtain ⟨j, hj, hpath⟩ := he
      cases hitems : v.items? with
      | none => simp [hitems] at hj
      | some items =>
        rw [hitems] at hj
        rw [Nat.zero_add] at hpath
        exact ⟨_, .item hbase hparts helement hitem hitems hj, hpath⟩
  · rintro ⟨lead, hmap, hpath⟩
    obtain ⟨p, entries⟩ := e
    cases hmap with
    | itself hbase hparts hwhole =>
      rw [checkedMaps_of_whole hbase hparts hwhole]
      exact List.mem_singleton.mpr (congrArg (·, entries) hpath.symm)
    | @item _ _ _ items i _ hbase hparts helement hitem hitems hi =>
      rw [checkedMaps_of_items hbase hparts helement hitem, hitems, mem_mapItems]
      exact ⟨i, hi, by rwa [Nat.zero_add]⟩

theorem mem_straysIn {check : String → String → Value → List (String × Stray)}
    {maps : List (String × Table Value)} {s : String × Stray} :
    s ∈ straysIn check maps ↔
      ∃ m ∈ maps, ∃ e ∈ m.2, s ∈ check (m.1 ++ "." ++ e.1) e.1 e.2 := by
  induction maps with
  | nil => simp [straysIn]
  | cons m maps ih =>
    rw [straysIn, List.mem_append, ih, List.mem_flatMap]
    simp only [List.mem_cons, exists_eq_or_imp]

theorem belowName_eq (path name : String) (v : Value) (nested : List (String × Rule)) :
    belowName path name v nested = match Table.get? nested name with
      | none => [(path, .unknown)]
      | some r => belowField path v r := by
  induction nested with
  | nil => rfl
  | cons e nested ih =>
    obtain ⟨declared, r⟩ := e
    by_cases hname : declared = name
    · simp [belowName, Table.get?, hname]
    · simpa [belowName, Table.get?, hname] using ih

theorem belowField_eq (path : String) (v : Value) (r : Rule) :
    belowField path v r = if r.hasNested then
      straysIn (fun path name v => belowName path name v r.nestedRules)
        (checkedMaps r.spec path v) else [] := by
  obtain ⟨spec, custom, requiredWhen, callback, nested⟩ := r
  cases nested with
  | none => rw [belowField]; rfl
  | some nested =>
    rw [belowField]
    cases nested <;> rfl

theorem hasNested_of_get? {name : String} {part : Rule}
    (h : Table.get? r.nestedRules name = some part) : r.hasNested = true := by
  unfold Rule.hasNested
  cases hnested : r.nestedRules with
  | nil => rw [hnested] at h; cases h
  | cons e nested => rfl

theorem mem_belowField_iff (r : Rule) {path : String} {v : Value} {s : String × Stray} :
    s ∈ belowField path v r ↔
      ∃ steps, StrayBelow r v steps ∧ s = (extend path steps, .unknown) := by
  induction r using Rule.nested_induction generalizing path v with
  | step r ih =>
    rw [belowField_eq]
    constructor
    · intro hs
      split at hs
      next hnested =>
        obtain ⟨⟨p, entries⟩, hm, ⟨name, w⟩, he, hs⟩ := mem_straysIn.mp hs
        obtain ⟨lead, hmap, rfl⟩ := mem_checkedMaps.mp hm
        rw [belowName_eq, ← extend_entry, ← extend_append] at hs
        cases hrule : Table.get? r.nestedRules name with
        | none =>
          rw [hrule] at hs
          exact ⟨_, .undeclared hnested hmap he hrule, List.mem_singleton.mp hs⟩
        | some part =>
          rw [hrule] at hs
          obtain ⟨steps, hbelow, rfl⟩ := (ih _ (Table.mem_of_get?_eq_some hrule)).mp hs
          refine ⟨_, .deeper hmap he hrule hbelow, ?_⟩
          rw [← extend_append, List.append_assoc]
          rfl
      next => cases hs
    · rintro ⟨steps, hbelow, rfl⟩
      cases hbelow with
      | @undeclared _ _ w lead entries name hnested hmap he hrule =>
        rw [if_pos hnested, mem_straysIn]
        refine ⟨(extend path lead, entries), mem_checkedMaps.mpr ⟨lead, hmap, rfl⟩, _, he, ?_⟩
        rw [belowName_eq, hrule, ← extend_entry, ← extend_append]
        exact List.mem_singleton_self _
      | @deeper _ part _ w lead steps entries name hmap he hrule hbelow =>
        rw [if_pos (hasNested_of_get? hrule), mem_straysIn]
        refine ⟨(extend path lead, entries), mem_checkedMaps.mpr ⟨lead, hmap, rfl⟩, _, he, ?_⟩
        rw [belowName_eq, hrule, ← extend_entry, ← extend_append]
        refine (ih _ (Table.mem_of_get?_eq_some hrule)).mpr ⟨steps, hbelow, ?_⟩
        rw [← extend_append, List.append_assoc]
        rfl

theorem mem_strayOf_iff {bagName name : String} {s : String × Stray} :
    s ∈ strayOf rules source bagName name v ↔
      (Table.get? rules name = none ∧ s = (name, .unknown)) ∨
      (∃ r, Table.get? rules name = some r ∧
        ((bagName ≠ sourceOf r.spec source ∧ s = (name, .misplaced)) ∨
          (bagName = sourceOf r.spec source ∧
            ∃ steps, StrayBelow r v steps ∧ s = (extend name steps, .unknown)))) := by
  unfold strayOf
  cases hrule : Table.get? rules name with
  | none => simp
  | some r =>
    by_cases hplace : bagName = sourceOf r.spec source
    · simp [hplace, mem_belowField_iff]
    · simp [hplace]

theorem mem_strays_iff {s : String × Stray} :
    s ∈ strays bags rules source ↔
      ∃ a stray, StrayAt bags rules source a stray ∧ s = (a.text, stray) := by
  unfold strays
  simp only [List.mem_flatMap, mem_strayOf_iff]
  constructor
  · rintro ⟨bagName, hbag, ⟨name, v⟩, he, ⟨hrule, rfl⟩ | ⟨r, hrule, hr⟩⟩
    · exact ⟨_, _, .undeclared hbag he hrule, rfl⟩
    · rcases hr with ⟨hplace, rfl⟩ | ⟨hplace, steps, hbelow, rfl⟩
      · exact ⟨_, _, .misplaced hbag he hrule hplace, rfl⟩
      · exact ⟨_, _, .below hbag he hrule hplace hbelow, rfl⟩
  · rintro ⟨a, stray, hat, rfl⟩
    cases hat with
    | undeclared hbag he hrule => exact ⟨_, hbag, _, he, .inl ⟨hrule, rfl⟩⟩
    | misplaced hbag he hrule hplace =>
      exact ⟨_, hbag, _, he, .inr ⟨_, hrule, .inl ⟨hplace, rfl⟩⟩⟩
    | below hbag he hrule hplace hbelow =>
      exact ⟨_, hbag, _, he, .inr ⟨_, hrule, .inr ⟨hplace, _, hbelow, rfl⟩⟩⟩

end FieldRules.Request
