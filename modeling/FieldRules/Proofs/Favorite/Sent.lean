import FieldRules.Favorite.Entity
import FieldRules.Proofs.Request.Settled
import FieldRules.Proofs.Validation.Enumerated

namespace FieldRules.Favorite

open Request Validation

inductive Truth : Value → Prop
  | bool (b : Bool) : Truth (.bool b)
  | text {s : String} : s ∈ Numeral.truthTexts → Truth (.str s)

def visibilityTexts : List String := ["private", "public"]

theorem visibilityTexts_ne_nil : visibilityTexts ≠ [] := by
  decide

def sentNames : List String := ["name", "htmlUrl", "owner", "active", "visibility"]

def savedNames : List String := sentNames ++ ["id"]

structure Sendable (body : Table Value) : Prop where
  name : ∃ s, s ≠ "" ∧ body.get? "name" = some (.str s)
  address : ∃ s, s ≠ "" ∧ body.get? "htmlUrl" = some (.str s)
  owner : ∀ v, body.get? "owner" = some v → v.isEmpty = true ∨ BaseType.string.Has v
  active : ∀ v, body.get? "active" = some v → v.isEmpty = true ∨ Truth v
  visibility : ∀ v, body.get? "visibility" = some v →
    v.isEmpty = true ∨ ∃ s ∈ visibilityTexts, v = .str s

variable {codes name : String} {isNew : Bool} {v w : Value} {data : Table Value}
  {limit : Numeral.DigitLimit} {bags : Bags} {r : Rule}

theorem mem_saveRules {e : String × Rule} : e ∈ saveRules isNew codes ↔
    e ∈ sentRules codes ∨ e = ("id", identityRule) ∧ isNew = false := by
  unfold saveRules
  cases isNew <;> simp

theorem nodup_names_saveRules : (Table.names (saveRules isNew codes)).Nodup := by
  have hnames : Table.names (saveRules isNew codes) =
      if isNew then sentNames else savedNames := by
    cases isNew <;> rfl
  rw [hnames]
  cases isNew <;> decide

theorem plain_filledText (label : String) : Plain (filledText label) .string :=
  ⟨⟨rfl, rfl, rfl⟩, ⟨rfl, rfl⟩, rfl, rfl, rfl, rfl⟩

theorem plain_ownerRule : Plain ownerRule .string :=
  ⟨⟨rfl, rfl, rfl⟩, ⟨rfl, rfl⟩, rfl, rfl, rfl, rfl⟩

theorem plain_activeRule : Plain activeRule .boolean :=
  ⟨⟨rfl, rfl, rfl⟩, ⟨rfl, rfl⟩, rfl, rfl, rfl, rfl⟩

theorem plain_visibilityRule (codes : String) : Plain (visibilityRule codes) .string :=
  ⟨⟨rfl, rfl, rfl⟩, ⟨rfl, rfl⟩, rfl, rfl, rfl, rfl⟩

theorem plain_identityRule : Plain identityRule .integer :=
  ⟨⟨rfl, rfl, rfl⟩, ⟨rfl, rfl⟩, rfl, rfl, rfl, rfl⟩

theorem fitting_saveRules (hcodes : isInternalCode codes = false) :
    ∀ e ∈ saveRules isNew codes, Fitting e.2 ∧ Alone e.2 := by
  have hunchecked : ∀ {r : Rule} {b : BaseType}, Plain r b → r.custom = none →
      Fitting r ∧ Alone r := fun hr hcustom => ⟨hr.fitting_of_unchecked hcustom, hr.toAlone⟩
  have hvisibility : Fitting (visibilityRule codes) := by
    refine (plain_visibilityRule codes).fitting fun label name data fault h => ?_
    exact isVerdict_of_checkEnum rfl visibilityTexts_ne_nil hcodes h
  intro e he
  rcases mem_saveRules.mp he with he | ⟨rfl, -⟩
  · simp only [sentRules, List.mem_cons, List.not_mem_nil, or_false] at he
    rcases he with rfl | rfl | rfl | rfl | rfl
    · exact hunchecked (plain_filledText _) rfl
    · exact hunchecked (plain_filledText _) rfl
    · exact hunchecked plain_ownerRule rfl
    · exact hunchecked plain_activeRule rfl
    · exact ⟨hvisibility, (plain_visibilityRule codes).toAlone⟩
  · exact hunchecked plain_identityRule rfl

theorem truth_of_coerce {spec : RuleSpec} (hbase : spec.base? = some .boolean)
    (h : coerce limit spec (withoutEmptyText v) = .ok w) :
    w.isEmpty = v.isEmpty ∧ (BaseType.boolean.Has w ↔ Truth v) := by
  have hkept : ∀ {v : Value}, (∀ s, v ≠ .str s) → (BaseType.boolean.Has v ↔ Truth v) := by
    intro v hv
    constructor
    · rintro ⟨⟩
      exact .bool _
    · rintro (_ | _)
      · exact .boolean _
      · exact absurd rfl (hv _)
  cases v with
  | str s =>
    by_cases hs : s = ""
    · subst hs
      simp only [withoutEmptyText, coerce, hbase, Except.ok.injEq] at h
      subst h
      refine ⟨rfl, nofun, ?_⟩
      rintro (_ | hin)
      exact absurd hin (by decide)
    · have hempty : (Value.str s).isEmpty = false := isEmpty_str_eq_false_iff.mpr hs
      rw [withoutEmptyText_of_not_isEmpty hempty] at h
      simp only [coerce, hbase] at h
      split at h
      next hmem =>
        cases h
        rw [hempty]
        exact ⟨rfl, fun _ => .text (List.contains_iff_mem.mp hmem), fun _ => .boolean _⟩
      next hmem =>
        cases h
        refine ⟨rfl, nofun, ?_⟩
        rintro (_ | hin)
        exact absurd (List.contains_iff_mem.mpr hin) hmem
  | _ =>
    simp only [withoutEmptyText, coerce, Except.ok.injEq] at h
    subst h
    exact ⟨rfl, hkept nofun⟩

def identityOf (i : String) : Value :=
  if Numeral.isInt i.toList then .int (Numeral.intOf i.toList) else withoutEmptyText (.str i)

theorem isInt_of_identityOf {i : String} (h : BaseType.integer.Has (identityOf i)) :
    Numeral.isInt i.toList = true := by
  unfold identityOf withoutEmptyText at h
  split at h
  next hint => exact hint
  next => split at h <;> cases h

theorem sent?_identity {i : String}
    (h : (bag bags "attributes").get? "id" = some (.str i)) :
    sent? bags "body" "id" identityRule.spec = some (.str i) := by
  have hsource : sourceOf identityRule.spec "body" = "attributes" := by decide
  rw [sent?, hsource, h]

theorem coerce_identity {i : String} (hfits : Numeral.fits limit i.toList = true) :
    coerce limit identityRule.spec (withoutEmptyText (.str i)) = .ok (identityOf i) := by
  have hbase : identityRule.spec.base? = some .integer := rfl
  by_cases hi : i = ""
  · subst hi
    rfl
  · have hempty : (Value.str i).isEmpty = false := isEmpty_str_eq_false_iff.mpr hi
    rw [identityOf, withoutEmptyText_of_not_isEmpty hempty]
    cases hint : Numeral.isInt i.toList with
    | true => rw [coerce_of_isInt limit hbase hint, if_pos hfits, if_pos rfl]
    | false => rw [coerce_of_not_isInt limit hbase hint, if_neg Bool.false_ne_true]

theorem sourceOf_of_none {source : String} {spec : RuleSpec} (hsource : spec.source = none) :
    sourceOf spec source = source := by
  rw [sourceOf, hsource]
  rfl

theorem sent?_of_no_default {source : String} {spec : RuleSpec} (hsource : spec.source = none)
    (hdefault : spec.default = none) :
    sent? bags source name spec = (bag bags source).get? name := by
  rw [sent?, sourceOf_of_none hsource, hdefault]
  cases (bag bags source).get? name <;> rfl

theorem sent?_of_default {source : String} {spec : RuleSpec} (hsource : spec.source = none)
    (hdefault : spec.default = some w) :
    sent? bags source name spec = some (((bag bags source).get? name).getD w) := by
  rw [sent?, sourceOf_of_none hsource, hdefault]
  cases (bag bags source).get? name <;> rfl

theorem forall_sent_iff {source : String} {spec : RuleSpec} {P : Value → Prop}
    (hsource : spec.source = none) (hdefault : ∀ v, spec.default = some v → P v) :
    (∀ v, sent? bags source name spec = some v → P v) ↔
      ∀ v, (bag bags source).get? name = some v → P v := by
  have hbag : sourceOf spec source = source := by
    rw [sourceOf, hsource]
    rfl
  unfold sent?
  rw [hbag]
  cases (bag bags source).get? name with
  | some v => rfl
  | none => simpa using hdefault

theorem extract_saveRules (hid : isNew = false → ∃ i,
    (bag bags "attributes").get? "id" = some (.str i) ∧ Numeral.fits limit i.toList = true) :
    ∃ data, extract limit bags (saveRules isNew codes) "body" = .ok data := by
  have hne : (saveRules isNew codes).isEmpty = false := by
    cases isNew <;> rfl
  rw [extract, if_neg (by simp [hne])]
  refine extractFrom_of_coerce fun f hf v hv => ?_
  obtain ⟨e, he, rfl⟩ := List.mem_map.mp hf
  rcases mem_saveRules.mp he with he | ⟨rfl, hnew⟩
  · simp only [sentRules, List.mem_cons, List.not_mem_nil, or_false] at he
    rcases he with rfl | rfl | rfl | rfl | rfl
    · exact ⟨_, coerce_of_string rfl _⟩
    · exact ⟨_, coerce_of_string rfl _⟩
    · exact ⟨_, coerce_of_string rfl _⟩
    · exact coerce_of_boolean rfl _
    · exact ⟨_, coerce_of_string rfl _⟩
  · obtain ⟨i, hsent, hfits⟩ := hid hnew
    cases (sent?_identity hsent).symm.trans hv
    exact ⟨_, coerce_identity hfits⟩

theorem source_of_saveRules (hr : (name, r) ∈ saveRules isNew codes) :
    name ∈ sentNames ∧ sourceOf r.spec "body" = "body" ∨
      name = "id" ∧ sourceOf r.spec "body" = "attributes" := by
  rcases mem_saveRules.mp hr with hr | ⟨heq, -⟩
  · simp only [sentRules, List.mem_cons, List.not_mem_nil, or_false, Prod.mk.injEq] at hr
    refine .inl ?_
    rcases hr with ⟨rfl, rfl⟩ | ⟨rfl, rfl⟩ | ⟨rfl, rfl⟩ | ⟨rfl, rfl⟩ | ⟨rfl, rfl⟩ <;>
      exact ⟨by decide, rfl⟩
  · obtain ⟨rfl, rfl⟩ := Prod.mk.inj heq
    exact .inr ⟨rfl, by decide⟩

theorem get?_saveRules (isNew : Bool) (codes : String) (hname : name ∈ sentNames) :
    ∃ r, Table.get? (saveRules isNew codes) name = some r := by
  have hnames : Table.names (sentRules codes) = sentNames := rfl
  rw [← hnames] at hname
  obtain ⟨⟨_, r⟩, hr, rfl⟩ := List.mem_map.mp hname
  exact ⟨r, Table.get?_of_mem nodup_names_saveRules (mem_saveRules.mpr (.inl hr))⟩

theorem strays_saveRules_iff (hcodes : isInternalCode codes = false) :
    strays bags (saveRules isNew codes) "body" = [] ↔
      (∀ e ∈ bag bags "body", e.1 ∈ sentNames) ∧ bag bags "query" = [] := by
  have hbody : ∀ name, (∃ r, Table.get? (saveRules isNew codes) name = some r ∧
      "body" = sourceOf r.spec "body") ↔ name ∈ sentNames := by
    intro name
    constructor
    · rintro ⟨r, hr, hsource⟩
      rcases source_of_saveRules (Table.mem_of_get?_eq_some hr) with ⟨hname, -⟩ | ⟨-, hother⟩
      · exact hname
      · exact absurd (hsource.trans hother) (by decide)
    · intro hname
      obtain ⟨r, hr⟩ := get?_saveRules isNew codes hname
      rcases source_of_saveRules (Table.mem_of_get?_eq_some hr) with ⟨-, hsource⟩ | ⟨rfl, -⟩
      · exact ⟨r, hr, hsource.symm⟩
      · exact absurd hname (by decide)
  have hquery : ∀ name, ¬∃ r, Table.get? (saveRules isNew codes) name = some r ∧
      "query" = sourceOf r.spec "body" := by
    rintro name ⟨r, hr, hsource⟩
    rcases source_of_saveRules (Table.mem_of_get?_eq_some hr) with ⟨-, hother⟩ | ⟨-, hother⟩ <;>
      exact absurd (hsource.trans hother) (by decide)
  rw [strays_eq_nil_iff_of_alone fun e he => (fitting_saveRules hcodes e he).2]
  simp only [checkedBags, List.forall_mem_cons, hbody, hquery, List.eq_nil_iff_forall_not_mem]
  simp

section Picked

variable (hdata : extract limit bags (saveRules isNew codes) "body" = .ok data)

include hdata

theorem get?_picked_iff (hr : (name, r) ∈ saveRules isNew codes) : data.get? name = some w ↔
    ∃ v, sent? bags "body" name r.spec = some v ∧
      coerce limit r.spec (withoutEmptyText v) = .ok w := by
  refine get?_extractFrom ?_ (extractFrom_of_extract hdata) (List.mem_map.mpr ⟨_, hr, rfl⟩)
  rw [List.map_map]
  exact nodup_names_saveRules

theorem get?_picked_of_string (hr : (name, r) ∈ saveRules isNew codes)
    (hbase : r.spec.base? = some .string) :
    data.get? name = (sent? bags "body" name r.spec).map withoutEmptyText := by
  refine get?_of_string ?_ (extractFrom_of_extract hdata) (List.mem_map.mpr ⟨_, hr, rfl⟩) hbase
  rw [List.map_map]
  exact nodup_names_saveRules

theorem nodup_names_picked : data.names.Nodup :=
  nodup_names_of_extract nodup_names_saveRules hdata

theorem mem_savedNames_of_picked (hname : name ∈ data.names) : name ∈ savedNames := by
  have hmem := (names_extractFrom (extractFrom_of_extract hdata)).subset hname
  rw [List.map_map] at hmem
  obtain ⟨e, he, rfl⟩ := List.mem_map.mp hmem
  rcases source_of_saveRules he with ⟨hsent, -⟩ | ⟨hid, -⟩
  · exact List.mem_append_left _ hsent
  · exact List.mem_append_right _ (List.mem_singleton.mpr hid)

theorem get?_picked_of_filled (hr : (name, r) ∈ saveRules isNew codes)
    (hbase : r.spec.base? = some .string) (hsent : sent? bags "body" name r.spec = some v)
    (hv : v.isEmpty = false) : data.get? name = some v := by
  rw [get?_picked_of_string hdata hr hbase, hsent, Option.map_some,
    withoutEmptyText_of_not_isEmpty hv]

theorem meets_text_iff (hr : (name, r) ∈ saveRules isNew codes) (hplain : Plain r .string)
    (hfilled : r.spec.requireFilled = some true) (hcustom : r.custom = none) :
    FieldMeets r name "" data ↔
      ∃ s, s ≠ "" ∧ sent? bags "body" name r.spec = some (.str s) := by
  rw [hplain.fieldMeets_iff_of_filled hfilled, get?_picked_of_string hdata hr hplain.base?]
  constructor
  · rintro ⟨v, hv, hempty, hmeets⟩
    obtain ⟨w, hw, rfl⟩ := Option.map_eq_some_iff.mp hv
    rw [isEmpty_withoutEmptyText] at hempty
    rw [withoutEmptyText_of_not_isEmpty hempty] at hmeets
    obtain ⟨⟨s⟩, -⟩ := hplain.valueMeets_iff.mp hmeets
    exact ⟨s, isEmpty_str_eq_false_iff.mp hempty, hw⟩
  · rintro ⟨s, hs, hsent⟩
    have hempty : (Value.str s).isEmpty = false := isEmpty_str_eq_false_iff.mpr hs
    rw [← get?_picked_of_string hdata hr hplain.base?,
      get?_picked_of_filled hdata hr hplain.base? hsent hempty]
    exact ⟨.str s, rfl, hempty, hplain.valueMeets_iff.mpr ⟨.string s, .unchecked hcustom⟩⟩

theorem meets_optional_text_iff (hr : (name, r) ∈ saveRules isNew codes) (hplain : Plain r .string)
    (hfilled : r.spec.requireFilled = none) : FieldMeets r name "" data ↔
      ∀ v, sent? bags "body" name r.spec = some v →
        v.isEmpty = true ∨
          BaseType.string.Has v ∧ Permits r (labelOf "" name r.spec) name data := by
  have hpicked : ∀ v, (withoutEmptyText v).isEmpty = true ∨
      ValueMeets r (labelOf "" name r.spec) name data (withoutEmptyText v) ↔
        v.isEmpty = true ∨
          BaseType.string.Has v ∧ Permits r (labelOf "" name r.spec) name data := by
    intro v
    rw [isEmpty_withoutEmptyText, hplain.valueMeets_iff]
    cases hempty : v.isEmpty with
    | true => simp
    | false => rw [withoutEmptyText_of_not_isEmpty hempty]
  rw [hplain.fieldMeets_iff_of_optional hfilled, get?_picked_of_string hdata hr hplain.base?]
  simp only [Option.map_eq_some_iff, forall_exists_index, and_imp, forall_apply_eq_imp_iff₂,
    hpicked]

theorem meets_enumerated_iff (hr : (name, r) ∈ saveRules isNew codes) (hplain : Plain r .string)
    (hfilled : r.spec.requireFilled = none) {known : String}
    (hcustom : r.custom = some (.call known (checkEnum codes))) {texts : List String}
    (henum : r.spec.enumValues = some (.tuple (texts.map .str))) (htexts : texts ≠ []) :
    FieldMeets r name "" data ↔
      ∀ v, sent? bags "body" name r.spec = some v →
        v.isEmpty = true ∨ ∃ s ∈ texts, v = .str s := by
  have hpermits : ∀ s, s ≠ "" → sent? bags "body" name r.spec = some (.str s) →
      (Permits r (labelOf "" name r.spec) name data ↔ s ∈ texts) := by
    intro s hs hsent
    have hempty : (Value.str s).isEmpty = false := isEmpty_str_eq_false_iff.mpr hs
    rw [permits_call_iff hcustom]
    exact checkEnum_eq_ok_iff henum htexts
      (get?_picked_of_filled hdata hr hplain.base? hsent hempty) hs
  rw [meets_optional_text_iff hdata hr hplain hfilled]
  refine forall₂_congr fun v hsent => ?_
  cases hempty : v.isEmpty with
  | true => simp
  | false =>
    refine or_congr_right ⟨?_, ?_⟩
    · rintro ⟨⟨s⟩, hown⟩
      exact ⟨s, (hpermits s (isEmpty_str_eq_false_iff.mp hempty) hsent).mp hown, rfl⟩
    · rintro ⟨s, hs, rfl⟩
      exact ⟨.string s, (hpermits s (isEmpty_str_eq_false_iff.mp hempty) hsent).mpr hs⟩

theorem meets_truth_iff (hr : (name, r) ∈ saveRules isNew codes) (hplain : Plain r .boolean)
    (hfilled : r.spec.requireFilled = none) (hcustom : r.custom = none) :
    FieldMeets r name "" data ↔
      ∀ v, sent? bags "body" name r.spec = some v → v.isEmpty = true ∨ Truth v := by
  have hpicked : ∀ {v w}, coerce limit r.spec (withoutEmptyText v) = .ok w →
      (w.isEmpty = true ∨ ValueMeets r (labelOf "" name r.spec) name data w ↔
        v.isEmpty = true ∨ Truth v) := by
    intro v w hw
    obtain ⟨hempty, htruth⟩ := truth_of_coerce hplain.base? hw
    rw [hplain.valueMeets_iff, hempty, htruth]
    exact or_congr_right (and_iff_left (.unchecked hcustom))
  rw [hplain.fieldMeets_iff_of_optional hfilled]
  constructor
  · intro h v hv
    obtain ⟨w, hw⟩ : ∃ w, coerce limit r.spec (withoutEmptyText v) = .ok w :=
      coerce_of_boolean hplain.base? _
    exact (hpicked hw).mp (h w ((get?_picked_iff hdata hr).mpr ⟨v, hv, hw⟩))
  · intro h w hget
    obtain ⟨v, hv, hw⟩ := (get?_picked_iff hdata hr).mp hget
    exact (hpicked hw).mpr (h v hv)

theorem get?_identity {i : String} (hnew : isNew = false)
    (hsent : (bag bags "attributes").get? "id" = some (.str i))
    (hfits : Numeral.fits limit i.toList = true) : data.get? "id" = some (identityOf i) := by
  rw [get?_picked_iff hdata (mem_saveRules.mpr (.inr ⟨rfl, hnew⟩))]
  exact ⟨_, sent?_identity hsent, coerce_identity hfits⟩

theorem get?_identity_of_isNew (hnew : isNew = true) : data.get? "id" = none := by
  rw [Table.get?_eq_none_iff]
  intro hmem
  have hsub := (names_extractFrom (extractFrom_of_extract hdata)).subset hmem
  rw [List.map_map, hnew] at hsub
  exact absurd (show "id" ∈ sentNames from hsub) (by decide)

theorem meets_identity_iff {i : String} (hnew : isNew = false)
    (hsent : (bag bags "attributes").get? "id" = some (.str i))
    (hfits : Numeral.fits limit i.toList = true) :
    FieldMeets identityRule "id" "" data ↔ Numeral.isInt i.toList = true := by
  rw [plain_identityRule.fieldMeets_iff_of_filled rfl]
  simp only [plain_identityRule.valueMeets_iff, get?_identity hdata hnew hsent hfits,
    Option.some.injEq, exists_eq_left']
  constructor
  · rintro ⟨-, hhas, -⟩
    exact isInt_of_identityOf hhas
  · intro hint
    rw [identityOf, if_pos hint]
    exact ⟨rfl, .integer _, .unchecked rfl⟩

theorem meets_saveRules_iff : (∀ e ∈ saveRules isNew codes, FieldMeets e.2 e.1 "" data) ↔
    Sendable (bag bags "body") ∧ (isNew = false → FieldMeets identityRule "id" "" data) := by
  have hsplit : (∀ e ∈ saveRules isNew codes, FieldMeets e.2 e.1 "" data) ↔
      (∀ e ∈ sentRules codes, FieldMeets e.2 e.1 "" data) ∧
        (isNew = false → FieldMeets identityRule "id" "" data) := by
    simp only [mem_saveRules, or_imp, forall_and, and_imp, forall_eq]
  have hmem : ∀ e ∈ sentRules codes, e ∈ saveRules isNew codes :=
    fun e he => mem_saveRules.mpr (.inl he)
  rw [hsplit]
  refine and_congr_left' ?_
  -- One lemma for each kind of field; what stands in for a field that was not sent always passes.
  simp only [sentRules, List.forall_mem_cons] at hmem ⊢
  obtain ⟨hname, haddress, howner, hactive, hvisibility, -⟩ := hmem
  rw [meets_text_iff hdata hname (plain_filledText _) rfl rfl,
    meets_text_iff hdata haddress (plain_filledText _) rfl rfl,
    meets_optional_text_iff hdata howner plain_ownerRule rfl,
    meets_truth_iff hdata hactive plain_activeRule rfl rfl,
    meets_enumerated_iff hdata hvisibility (plain_visibilityRule codes) rfl rfl rfl
      visibilityTexts_ne_nil,
    sent?_of_no_default rfl rfl, sent?_of_no_default rfl rfl, forall_sent_iff rfl nofun,
    forall_sent_iff rfl ?_, forall_sent_iff rfl ?_]
  · constructor
    · rintro ⟨hname, haddress, howner, hactive, hvisibility, -⟩
      exact ⟨hname, haddress, fun v hv => (howner v hv).imp_right And.left, hactive, hvisibility⟩
    · rintro ⟨hname, haddress, howner, hactive, hvisibility⟩
      refine ⟨hname, haddress, fun v hv => (howner v hv).imp_right ?_, hactive, hvisibility, nofun⟩
      exact fun hhas => ⟨hhas, .unchecked rfl⟩
  · rintro v ⟨⟩
    exact .inr ⟨"private", by decide, rfl⟩
  · rintro v ⟨⟩
    exact .inr (.bool true)

end Picked

end FieldRules.Favorite
