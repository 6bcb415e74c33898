import FieldRules.Proofs.Search.ValidatedCompiles
import FieldRules.Proofs.Validation.Internal

namespace FieldRules

/-- A field that a program may declare for a handler of searches; `format` is the one of dates
    whose rule gives none. -/
structure HandlerField (format : String) (r : Rule) : Prop where
  search : SearchField r
  group : NamedGroup r.spec
  regex : r.spec.regex = none
  length : Validation.WellMeasured r.spec
  required : ∀ data, ∃ b, Validation.required? r.spec r.requiredWhen data = .ok b
  wildcard : ∃ ends, Filter.wildcardEnds r.spec.wildcard = .ok ends
  enum : r.spec.hasEnum = true → ∃ values, (r.spec.enumValues.getD .null).elements? = some values
  dates : flag r.spec.date = true → ∀ pieces,
    Calendar.pieces? ((Text.nonempty? r.spec.dateFormat).getD format).toList = some pieces →
      (Calendar.parts pieces).Nodup

namespace Filter

variable {g : Grammar} {spec : RuleSpec} {fault : Fault}

theorem isVerdict_of_verdict (hcodes : isInternalCode g.codes = false) {b : Bool}
    (h : g.verdict (.ok b) = .error fault) : fault.IsVerdict := by
  cases b with
  | true => cases h
  | false =>
    cases h
    exact ⟨_, _, rfl, isInternalCode_append hcodes rfl⟩

def Reader.Total (r : Reader) : Prop := ∀ cs, ∃ b, r.accepts cs = .ok b

theorem isDate_total {format : String}
    (h : ∀ pieces, Calendar.pieces? format.toList = some pieces → (Calendar.parts pieces).Nodup)
    (text : String) : ∃ b, isDate format text = .ok b := by
  have hsome : ∃ b, Calendar.isDate? text.toList format.toList = some b := by
    unfold Calendar.isDate?
    split
    · exact ⟨_, rfl⟩
    next pieces hpieces =>
      rw [if_neg (not_not.mpr (h pieces hpieces))]
      split <;> exact ⟨_, rfl⟩
  obtain ⟨b, hb⟩ := hsome
  exact ⟨b, by rw [isDate, hb]⟩

theorem Reader.Total.acceptsAll {r : Reader} (hr : r.Total) (texts : List (List Char)) :
    ∃ b, r.acceptsAll texts = .ok b := by
  induction texts with
  | nil => exact ⟨true, rfl⟩
  | cons cs texts ih =>
    obtain ⟨b, hb⟩ := hr cs
    rw [Reader.acceptsAll, hb]
    cases b with
    | true => exact ih
    | false => exact ⟨false, rfl⟩

theorem Reader.Total.comparableItem {r : Reader} (hr : r.Total) (spec : RuleSpec) (first : Bool)
    (cs : List Char) : ∃ b, comparableItem spec r first cs = .ok b := by
  unfold Filter.comparableItem
  split
  · dsimp only
    split
    · exact hr.acceptsAll _
    · exact ⟨false, rfl⟩
  · split
    · split
      · exact hr _
      · exact ⟨false, rfl⟩
    · split
      · split
        · exact hr _
        · exact ⟨false, rfl⟩
      · exact hr _

theorem Reader.Total.comparableItems {r : Reader} (hr : r.Total) (spec : RuleSpec) (first : Bool)
    (items : List (List Char)) : ∃ b, comparableItems spec r first items = .ok b := by
  induction items generalizing first with
  | nil => exact ⟨true, rfl⟩
  | cons cs items ih =>
    obtain ⟨b, hb⟩ := hr.comparableItem spec first cs
    rw [Filter.comparableItems, hb]
    cases b with
    | true => exact ih false
    | false => exact ⟨false, rfl⟩

theorem reader_total (h : flag spec.date = true → ∀ pieces,
    Calendar.pieces? ((Text.nonempty? spec.dateFormat).getD g.dateFormat).toList = some pieces →
      (Calendar.parts pieces).Nodup) : (g.reader spec).Total := by
  intro cs
  unfold Grammar.reader
  split
  next hdate => exact isDate_total (h hdate) _
  · split <;> exact ⟨_, rfl⟩

variable {name : String} {data : Table Value}

theorem isVerdict_of_checkComparable (hcodes : isInternalCode g.codes = false)
    (hr : (g.reader spec).Total) (h : g.checkComparable name data spec = .error fault) :
    fault.IsVerdict := by
  unfold Grammar.checkComparable at h
  split at h
  · cases h
  next v _ =>
    obtain ⟨b, hb⟩ := hr.comparableItems spec true ((Grammar.listItems spec v).map String.toList)
    rw [hb] at h
    exact isVerdict_of_verdict hcodes h

theorem isVerdict_of_checkEnum (hcodes : isInternalCode g.codes = false)
    (henum : spec.hasEnum = true → ∃ values, (spec.enumValues.getD .null).elements? = some values)
    (h : g.checkEnum name data spec = .error fault) : fault.IsVerdict := by
  unfold Grammar.checkEnum at h
  split at h
  · cases h
  · dsimp only at h
    split at h
    next hnone =>
      split at hnone
      next hhas =>
        obtain ⟨values, hvalues⟩ := henum hhas
        cases hvalues.symm.trans hnone
      · cases hnone
    · exact isVerdict_of_verdict hcodes h

theorem isVerdict_of_checkOrderBy (hcodes : isInternalCode g.codes = false)
    (h : g.checkOrderBy name data spec = .error fault) : fault.IsVerdict := by
  unfold Grammar.checkOrderBy at h
  split at h
  · cases h
  · exact isVerdict_of_verdict hcodes h

theorem rowOf_eq_error {s : String} (h : rowOf s = .error fault) : fault = .brokenRow := by
  unfold rowOf at h
  split at h
  · cases h
  · cases h
    rfl

theorem checkString_cases (hcodes : isInternalCode g.codes = false)
    (hends : ∃ ends, wildcardEnds spec.wildcard = .ok ends)
    (h : g.checkString name data spec = .error fault) : fault.IsVerdict ∨ fault = .brokenRow := by
  obtain ⟨ends, hends⟩ := hends
  unfold Grammar.checkString at h
  split at h
  · cases h
  · rw [hends] at h
    dsimp only [bind, Except.bind] at h
    split at h
    · rcases Outcome.bind_eq_error.mp h with hrow | ⟨fields, -, h⟩
      · exact .inr (rowOf_eq_error hrow)
      · exact .inl (isVerdict_of_verdict hcodes h)
    · exact .inl (isVerdict_of_verdict hcodes h)

theorem rowOf_eq_brokenRow_iff (s : String) :
    rowOf s = .error .brokenRow ↔ ∃ why, Text.splitRow s.toList = .error why := by
  unfold rowOf
  cases Text.splitRow s.toList with
  | ok fields => simp
  | error why => simp

theorem not_isVerdict_brokenRow : ¬Fault.brokenRow.IsVerdict := by
  rintro ⟨code, params, h, -⟩
  cases h

theorem checkString_eq_brokenRow_iff (hcodes : isInternalCode g.codes = false)
    (hends : ∃ ends, wildcardEnds spec.wildcard = .ok ends) {s : String}
    (hget : data.get? name = some (.str s)) (hs : s ≠ "") :
    g.checkString name data spec = .error .brokenRow ↔
      flag spec.listAllowed = true ∧ ∃ why, Text.splitRow s.toList = .error why := by
  obtain ⟨ends, hends⟩ := hends
  have hverdict : ∀ b, g.verdict (.ok b) ≠ .error .brokenRow :=
    fun b hb => not_isVerdict_brokenRow (isVerdict_of_verdict hcodes hb)
  rw [← rowOf_eq_brokenRow_iff]
  unfold Grammar.checkString
  rw [informed?_str hget hs]
  dsimp only
  rw [hends]
  dsimp only [bind, Except.bind]
  cases hlist : flag spec.listAllowed with
  | false => simp [hverdict]
  | true =>
    simp only [if_true, true_and]
    change (rowOf s).bind _ = _ ↔ _
    rw [Outcome.bind_eq_error]
    simp [hverdict]

end Filter

namespace Validation

variable {g : Filter.Grammar} {r : Rule} {label name : String} {data : Table Value} {fault : Fault}

theorem wildcardEnds_prepared (hr : HandlerField g.dateFormat r) :
    ∃ ends, Filter.wildcardEnds r.spec.prepared.wildcard = .ok ends := by
  have hpair : ∃ ends, Filter.wildcardEnds (some (RuleSpec.wildcardPair r.spec.wildcard)) =
      .ok ends := by
    obtain ⟨ends, hends⟩ := hr.wildcard
    unfold RuleSpec.wildcardPair
    split
    · exact ⟨_, rfl⟩
    · exact ⟨_, rfl⟩
    next v hv => exact ⟨ends, by rw [← hv]; exact hends⟩
  cases hp : r.spec.isPlainString r.spec.type with
  | true =>
    have hwildcard : r.spec.prepared.wildcard = some (RuleSpec.wildcardPair r.spec.wildcard) := by
      simp [RuleSpec.prepared, hp]
    rwa [hwildcard]
  | false =>
    rw [RuleSpec.wildcard_prepared_of_not_plain hp]
    exact ⟨_, rfl⟩

theorem ordinary_prepare (hr : HandlerField g.dateFormat r) : Ordinary (r.prepare (some g)) := by
  obtain ⟨b, hb⟩ := hr.search.type
  have htype := RuleSpec.type_prepared hb
  rw [Rule.prepare_of_unprepared hr.search.unprepared]
  constructor
  · exact ⟨_, htype⟩
  · simp only [Rule.shape, Rule.shapeOf, RuleSpec.base?, htype, DeclaredType.base?]
    cases b <;> rfl
  · refine .inr ⟨?_, hr.length⟩
    simp only [RuleSpec.base?, htype, DeclaredType.base?]
    cases b <;> rfl
  · exact hr.regex
  · intro data
    obtain ⟨required, hrequired⟩ := hr.required data
    exact ⟨required, hrequired⟩

theorem isPlainString_of_checkFor? (h : Filter.checkFor? r.spec = some .string) :
    r.spec.isPlainString r.spec.type = true := by
  unfold Filter.checkFor? at h
  split at h
  · cases h
  next henum =>
    split at h
    · cases h
    next hdate =>
      split at h
      next hbase =>
        have hbase : DeclaredType.base? r.spec.type = some .string := hbase
        simp [RuleSpec.isPlainString, hbase, henum, hdate]
      · cases h
      · cases h
      · cases h

theorem checkCustom_prepare_cases (hcodes : isInternalCode g.codes = false)
    (hr : HandlerField g.dateFormat r)
    (h : checkCustom (r.prepare (some g)).custom (r.prepare (some g)).spec label name data =
      .error fault) :
    fault.IsVerdict ∨ r.spec.isPlainString r.spec.type = true ∧
      ∃ l, g.checkString name data { r.spec.prepared with label := l } = .error fault := by
  rw [Rule.prepare_of_unprepared hr.search.unprepared] at h
  dsimp only at h
  simp only [Filter.chosenCheck, hr.search.noCustom] at h
  cases hcheck : Filter.checkFor? r.spec with
  | none =>
    rw [hcheck] at h
    cases h
  | some check =>
    rw [hcheck, Option.map_some] at h
    obtain ⟨l, hrun⟩ := Filter.checkCustom_hook check g r.spec.prepared label name data
    rw [hrun] at h
    have hreader : (g.reader { r.spec.prepared with label := l }).Total :=
      Filter.reader_total hr.dates
    have henum : ({ r.spec.prepared with label := l } : RuleSpec).hasEnum = true →
        ∃ values, (r.spec.enumValues.getD .null).elements? = some values := hr.enum
    cases check with
    | enum => exact .inl (Filter.isVerdict_of_checkEnum hcodes henum h)
    | string => exact .inr ⟨isPlainString_of_checkFor? hcheck, l, h⟩
    | integer => exact .inl (Filter.isVerdict_of_checkComparable hcodes hreader h)
    | float => exact .inl (Filter.isVerdict_of_checkComparable hcodes hreader h)
    | date => exact .inl (Filter.isVerdict_of_checkComparable hcodes hreader h)
    | orderBy => exact .inl (Filter.isVerdict_of_checkOrderBy hcodes h)

theorem fair_prepare (hcodes : isInternalCode g.codes = false) (hr : HandlerField g.dateFormat r) :
    Fair (r.prepare (some g)) := by
  intro label name data fault h
  rcases checkCustom_prepare_cases hcodes hr h with hverdict | ⟨-, l, hrun⟩
  · exact .inl hverdict
  · have hends : ∃ ends, Filter.wildcardEnds
        ({ r.spec.prepared with label := l } : RuleSpec).wildcard = .ok ends :=
      wildcardEnds_prepared hr
    exact Filter.checkString_cases hcodes hends hrun

theorem ordinary_counting (label : String) : Ordinary (Rule.counting label) where
  type := ⟨_, rfl⟩
  shape := rfl
  length := .inl rfl
  regex := rfl
  required _ := ⟨_, rfl⟩

theorem fair_counting (label : String) : Fair (Rule.counting label) := by
  intro _ _ _ _ h
  cases h

theorem ordinary_sorting (names : List String) :
    Ordinary (Rule.sorting.withColumns (some g) names) where
  type := ⟨_, rfl⟩
  shape := rfl
  length := .inl rfl
  regex := rfl
  required _ := ⟨_, rfl⟩

theorem isVerdict_of_sorting (hcodes : isInternalCode g.codes = false) {names : List String}
    (h : checkCustom (Rule.sorting.withColumns (some g) names).custom
      (Rule.sorting.withColumns (some g) names).spec label name data = .error fault) :
    fault.IsVerdict := by
  have hcustom : (Rule.sorting.withColumns (some g) names).custom =
      some (Filter.GrammarCheck.orderBy.hook g) := rfl
  rw [hcustom] at h
  obtain ⟨l, hrun⟩ := Filter.checkCustom_hook .orderBy g
    (Rule.sorting.withColumns (some g) names).spec label name data
  exact Filter.isVerdict_of_checkOrderBy hcodes (hrun.symm.trans h)

def LengthFits (spec : RuleSpec) (s : String) : Prop :=
  ∀ low high, spec.length = some (.tuple [low, high]) → within? low (.int s.length) high = .ok true

theorem lengthStep_eq_ok_iff {codes : String} {spec : RuleSpec} (hbase : spec.base? = some .string)
    (hlength : WellMeasured spec) (shape : Shape) (s : String) :
    lengthStep codes spec shape (.str s) = .ok () ↔ LengthFits spec s := by
  unfold lengthStep LengthFits
  rw [hbase]
  rcases hlength with hnone | ⟨low, high, hsome, hlow, hhigh⟩
  · simp [hnone]
  · have hsize : (Value.int s.length).amount?.isSome = true := rfl
    obtain ⟨b, hb⟩ := within?_total hlow hsize hhigh
    rw [hsome]
    simp only [Option.some.injEq, Value.tuple.injEq, List.cons.injEq, and_true, and_imp]
    have hstep : checkLength codes false (.tuple [low, high]) (.str s) = .ok () ↔ b = true := by
      unfold checkLength bounds? measure
      simp only [Value.elements?, Bool.false_eq_true, if_false, hb]
      cases b <;> simp
    simpa [BaseType.isNumeric, hb] using hstep

theorem spec_prepare (hr : HandlerField g.dateFormat r) :
    (r.prepare (some g)).spec = r.spec.prepared := by
  rw [Rule.prepare_of_unprepared hr.search.unprepared]

theorem base?_of_plain {spec : RuleSpec} (h : spec.isPlainString spec.type = true) :
    spec.base? = some .string := by
  simp only [RuleSpec.isPlainString, Bool.and_eq_true, beq_iff_eq] at h
  exact h.1.1

theorem base?_prepared_of_plain {spec : RuleSpec} (h : spec.isPlainString spec.type = true) :
    spec.prepared.base? = some .string := by
  have hprepared : spec.prepared.base? =
      some (if spec.base? == some .boolean then .boolean else .string) := rfl
  rw [hprepared, base?_of_plain h]
  rfl

theorem listAllowed_prepared_of_plain {spec : RuleSpec}
    (h : spec.isPlainString spec.type = true) :
    flag spec.prepared.listAllowed = true ↔ spec.listAllowed ≠ some false := by
  have hlist : spec.prepared.listAllowed = some (spec.listAllowed.getD true) := by
    simp [RuleSpec.prepared, base?_of_plain h]
  rw [hlist]
  rcases spec.listAllowed with _ | _ | _ <;> simp [flag]

theorem lengthFits_prepared {spec : RuleSpec} {s : String} :
    LengthFits spec.prepared s ↔ LengthFits spec s := Iff.rfl

theorem reaches_prepare_iff {codes : String} (hr : HandlerField g.dateFormat r)
    (hplain : r.spec.isPlainString r.spec.type = true) {v : Value} :
    Reaches codes (r.prepare (some g)) name data v ↔
      data.get? name = some v ∧ ∃ s, v = .str s ∧ s ≠ "" ∧ LengthFits r.spec s := by
  have hspec := spec_prepare hr
  have hbase := base?_prepared_of_plain hplain
  have hlength : WellMeasured r.spec.prepared := hr.length
  constructor
  · rintro ⟨hget, hempty, htype, hfits⟩
    rw [hspec] at htype hfits
    obtain ⟨b, hb, hv⟩ := hasType_of_checkType htype
    obtain rfl : b = .string := Option.some.inj (hb.symm.trans hbase)
    obtain ⟨s, rfl⟩ := str_of_hasType hv
    refine ⟨hget, s, rfl, ?_, ?_⟩
    · rintro rfl
      cases hempty
    · exact lengthFits_prepared.mp ((lengthStep_eq_ok_iff hbase hlength _ s).mp hfits)
  · rintro ⟨hget, s, rfl, hs, hfits⟩
    have htype : DeclaredType.base? r.spec.prepared.type = some .string := hbase
    refine ⟨hget, by simp [Value.isEmpty, hs], ?_, ?_⟩
    · rw [hspec, checkType, htype]
      rfl
    · rw [hspec]
      exact (lengthStep_eq_ok_iff hbase hlength _ s).mpr (lengthFits_prepared.mpr hfits)

theorem checkCustom_plain_iff (hcodes : isInternalCode g.codes = false)
    (hr : HandlerField g.dateFormat r) (hplain : r.spec.isPlainString r.spec.type = true)
    {s : String} (hget : data.get? name = some (.str s)) (hs : s ≠ "") :
    checkCustom (r.prepare (some g)).custom (r.prepare (some g)).spec label name data =
        .error .brokenRow ↔
      r.spec.listAllowed ≠ some false ∧ ∃ why, Text.splitRow s.toList = .error why := by
  obtain ⟨l, hrun⟩ := Filter.checkCustom_hook .string g r.spec.prepared label name data
  have hends : ∃ ends, Filter.wildcardEnds
      ({ r.spec.prepared with label := l } : RuleSpec).wildcard = .ok ends :=
    wildcardEnds_prepared hr
  have hbroken := Filter.checkString_eq_brokenRow_iff hcodes hends hget hs
  rw [Rule.prepare_of_unprepared hr.search.unprepared]
  dsimp only
  rw [chosenCheck_of_plain hr.search.noCustom hplain, hrun]
  exact hbroken.trans (and_congr_left' (listAllowed_prepared_of_plain hplain))

theorem breaks_prepare_iff {codes : String} (hcodes : isInternalCode g.codes = false)
    (hr : HandlerField g.dateFormat r) : Breaks codes "" name (r.prepare (some g)) data ↔
      r.spec.isPlainString r.spec.type = true ∧ r.spec.listAllowed ≠ some false ∧
        ∃ s, data.get? name = some (.str s) ∧ s ≠ "" ∧ LengthFits r.spec s ∧
          ∃ why, Text.splitRow s.toList = .error why := by
  constructor
  · rintro ⟨v, hreach, hcustom⟩
    have hplain : r.spec.isPlainString r.spec.type = true := by
      rcases checkCustom_prepare_cases hcodes hr hcustom with hverdict | ⟨hplain, -⟩
      · exact absurd hverdict Filter.not_isVerdict_brokenRow
      · exact hplain
    obtain ⟨hget, s, rfl, hs, hfits⟩ := (reaches_prepare_iff hr hplain).mp hreach
    obtain ⟨hlist, hsplit⟩ := (checkCustom_plain_iff hcodes hr hplain hget hs).mp hcustom
    exact ⟨hplain, hlist, s, hget, hs, hfits, hsplit⟩
  · rintro ⟨hplain, hlist, s, hget, hs, hfits, hsplit⟩
    exact ⟨.str s, (reaches_prepare_iff hr hplain).mpr ⟨hget, s, rfl, hs, hfits⟩,
      (checkCustom_plain_iff hcodes hr hplain hget hs).mpr ⟨hlist, hsplit⟩⟩

end Validation

end FieldRules
