import FieldRules.Proofs.Validation.Clean
import FieldRules.Proofs.Validation.Errors
import FieldRules.Request.Handler

namespace FieldRules.Request

open Errors

variable {limit : Numeral.DigitLimit} {bags : Bags} {source : String} {data : Table Value}

theorem coerce_ne_emptyText {spec : RuleSpec} {v w : Value}
    (h : coerce limit spec (withoutEmptyText v) = .ok w) : w ≠ .str "" := by
  have hv : withoutEmptyText v ≠ .str "" := by
    unfold withoutEmptyText
    split
    · simp
    next hne => exact hne
  rintro rfl
  unfold coerce at h
  split at h
  · split at h
    · obtain ⟨n, -, hn⟩ := Outcome.map_eq_ok.mp h
      cases hn
    · exact hv (Except.ok.inj h)
  · split at h
    · cases h
    · exact hv (Except.ok.inj h)
  · split at h
    · cases h
    · exact hv (Except.ok.inj h)
  · exact hv (Except.ok.inj h)

theorem mem_extractFrom {specs : List (String × RuleSpec)}
    (h : extractFrom limit bags source specs = .ok data) :
    ∀ e ∈ data, ∃ spec v, (e.1, spec) ∈ specs ∧ sent? bags source e.1 spec = some v ∧
      coerce limit spec (withoutEmptyText v) = .ok e.2 := by
  induction specs generalizing data with
  | nil =>
    cases h
    simp
  | cons f specs ih =>
    obtain ⟨name, spec⟩ := f
    simp only [extractFrom] at h
    split at h
    · intro e he
      obtain ⟨spec', v, hm, hs, hc⟩ := ih h e he
      exact ⟨spec', v, List.mem_cons_of_mem _ hm, hs, hc⟩
    next v hv =>
      split at h
      · cases h
      next w hw =>
        obtain ⟨rest, hrest, rfl⟩ := Outcome.map_eq_ok.mp h
        intro e he
        rcases List.mem_cons.mp he with rfl | he
        · exact ⟨spec, v, List.mem_cons_self, hv, hw⟩
        · obtain ⟨spec', v', hm, hs, hc⟩ := ih hrest e he
          exact ⟨spec', v', List.mem_cons_of_mem _ hm, hs, hc⟩

theorem names_extractFrom {specs : List (String × RuleSpec)}
    (h : extractFrom limit bags source specs = .ok data) :
    (Table.names data).Sublist (specs.map Prod.fst) := by
  induction specs generalizing data with
  | nil =>
    cases h
    exact List.Sublist.refl _
  | cons f specs ih =>
    simp only [extractFrom] at h
    split at h
    · exact (ih h).cons _
    · split at h
      · cases h
      · obtain ⟨rest, hrest, rfl⟩ := Outcome.map_eq_ok.mp h
        exact (ih hrest).cons_cons _

theorem coerce_total (spec : RuleSpec) (v : Value) : ∃ w, coerce none spec v = .ok w := by
  unfold coerce
  split
  · split
    · exact ⟨_, by rw [Numeral.readInt, Numeral.fits, Option.all_none, if_pos rfl]; rfl⟩
    · exact ⟨_, rfl⟩
  · split <;> exact ⟨_, rfl⟩
  · split <;> exact ⟨_, rfl⟩
  · exact ⟨_, rfl⟩

theorem coerce_of_isInt {spec : RuleSpec} (limit : Numeral.DigitLimit)
    (hbase : spec.base? = some .integer) {s : String} (h : Numeral.isInt s.toList = true) :
    coerce limit spec (.str s) =
      if Numeral.fits limit s.toList then .ok (.int (Numeral.intOf s.toList))
      else .error .tooManyDigits := by
  unfold coerce
  rw [hbase]
  dsimp only
  rw [if_pos h, Numeral.readInt]
  split <;> rfl

theorem coerce_of_not_isInt {spec : RuleSpec} (limit : Numeral.DigitLimit)
    (hbase : spec.base? = some .integer) {s : String} (h : Numeral.isInt s.toList = false) :
    coerce limit spec (.str s) = .ok (.str s) := by
  unfold coerce
  rw [hbase]
  dsimp only
  rw [h, if_neg Bool.false_ne_true]

theorem coerce_of_string {spec : RuleSpec} (h : spec.base? = some .string) (v : Value) :
    coerce limit spec v = .ok v := by
  unfold coerce
  rw [h]
  cases v <;> rfl

theorem coerce_of_boolean {spec : RuleSpec} (h : spec.base? = some .boolean) (v : Value) :
    ∃ w, coerce limit spec v = .ok w := by
  unfold coerce
  rw [h]
  cases v with
  | str s =>
    dsimp only
    split <;> exact ⟨_, rfl⟩
  | _ => exact ⟨_, rfl⟩

theorem extractFrom_of_coerce {specs : List (String × RuleSpec)}
    (h : ∀ e ∈ specs, ∀ v, sent? bags source e.1 e.2 = some v →
      ∃ w, coerce limit e.2 (withoutEmptyText v) = .ok w) :
    ∃ data, extractFrom limit bags source specs = .ok data := by
  induction specs with
  | nil => exact ⟨[], rfl⟩
  | cons f specs ih =>
    obtain ⟨rest, hrest⟩ := ih fun e he => h e (List.mem_cons_of_mem _ he)
    simp only [extractFrom]
    split
    · exact ⟨rest, hrest⟩
    next v hv =>
      obtain ⟨w, hw⟩ := h f List.mem_cons_self v hv
      exact ⟨(f.1, w) :: rest, by rw [hw, hrest]; rfl⟩

theorem extractFrom_total (bags : Bags) (source : String) (specs : List (String × RuleSpec)) :
    ∃ data, extractFrom none bags source specs = .ok data :=
  extractFrom_of_coerce fun e _ v _ => coerce_total e.2 (withoutEmptyText v)

theorem nodup_specs {rules : RuleMap} (hn : (Table.names rules).Nodup) :
    ((Validation.specs rules).map Prod.fst).Nodup := by
  simpa [Validation.specs, Table.names, Function.comp_def] using hn

theorem get?_extractFrom {specs : List (String × RuleSpec)} (hn : (specs.map Prod.fst).Nodup)
    (h : extractFrom limit bags source specs = .ok data) {name : String} {spec : RuleSpec}
    (hm : (name, spec) ∈ specs) {w : Value} : data.get? name = some w ↔
      ∃ v, sent? bags source name spec = some v ∧
        coerce limit spec (withoutEmptyText v) = .ok w := by
  induction specs generalizing data with
  | nil => cases hm
  | cons f specs ih =>
    have hn' : f.1 ∉ specs.map Prod.fst ∧ (specs.map Prod.fst).Nodup := by
      rwa [List.map_cons, List.nodup_cons] at hn
    have habsent : ∀ {rest}, extractFrom limit bags source specs = .ok rest →
        Table.get? rest f.1 = none := by
      intro rest hrest
      exact (Table.get?_eq_none_iff _ _).mpr fun hmem =>
        hn'.1 ((names_extractFrom hrest).subset hmem)
    have hother : ∀ {spec'}, (name, spec') ∈ specs → f.1 ≠ name := by
      rintro spec' hmem rfl
      exact hn'.1 (List.mem_map.mpr ⟨_, hmem, rfl⟩)
    simp only [extractFrom] at h
    split at h
    next hsent =>
      rcases List.mem_cons.mp hm with rfl | hm
      · rw [habsent h, hsent]
        simp
      · exact ih hn'.2 h hm
    next v hv =>
      split at h
      · cases h
      next w' hw' =>
        obtain ⟨rest, hrest, rfl⟩ := Outcome.map_eq_ok.mp h
        rcases List.mem_cons.mp hm with rfl | hm
        · have hget : Table.get? ((name, w') :: rest) name = some w' := if_pos rfl
          rw [hget, hv]
          simp [hw']
        · have hget : Table.get? ((f.1, w') :: rest) name = Table.get? rest name :=
            if_neg (hother hm)
          rw [hget]
          exact ih hn'.2 hrest hm

theorem has_extractFrom {specs : List (String × RuleSpec)} (hn : (specs.map Prod.fst).Nodup)
    (h : extractFrom none bags source specs = .ok data) {name : String} {spec : RuleSpec}
    (hm : (name, spec) ∈ specs) : data.has name = (sent? bags source name spec).isSome := by
  rw [Bool.eq_iff_iff, Table.has, Option.isSome_iff_exists, Option.isSome_iff_exists]
  constructor
  · rintro ⟨w, hw⟩
    obtain ⟨v, hv, -⟩ := (get?_extractFrom hn h hm).mp hw
    exact ⟨v, hv⟩
  · rintro ⟨v, hv⟩
    obtain ⟨w, hw⟩ := coerce_total spec (withoutEmptyText v)
    exact ⟨w, (get?_extractFrom hn h hm).mpr ⟨v, hv, hw⟩⟩

theorem isEmpty_str_eq_false_iff {s : String} : (Value.str s).isEmpty = false ↔ s ≠ "" := by
  simp [Value.isEmpty]

theorem isEmpty_withoutEmptyText (v : Value) : (withoutEmptyText v).isEmpty = v.isEmpty := by
  unfold withoutEmptyText
  split <;> rfl

theorem withoutEmptyText_of_not_isEmpty {v : Value} (hv : v.isEmpty = false) :
    withoutEmptyText v = v := by
  unfold withoutEmptyText
  split
  · cases hv
  · rfl

theorem get?_of_string {specs : List (String × RuleSpec)} (hn : (specs.map Prod.fst).Nodup)
    (h : extractFrom limit bags source specs = .ok data) {name : String} {spec : RuleSpec}
    (hm : (name, spec) ∈ specs) (hbase : spec.base? = some .string) :
    data.get? name = (sent? bags source name spec).map withoutEmptyText := by
  refine Option.ext fun w => ?_
  rw [get?_extractFrom hn h hm, Option.map_eq_some_iff]
  simp only [coerce_of_string hbase, Except.ok.injEq]

theorem get?_text_iff {specs : List (String × RuleSpec)} (hn : (specs.map Prod.fst).Nodup)
    (h : extractFrom limit bags source specs = .ok data) {name : String} {spec : RuleSpec}
    (hm : (name, spec) ∈ specs) (hbase : spec.base? = some .string) {s : String} (hs : s ≠ "") :
    data.get? name = some (.str s) ↔ sent? bags source name spec = some (.str s) := by
  rw [get?_of_string hn h hm hbase, Option.map_eq_some_iff]
  constructor
  · rintro ⟨v, hv, hw⟩
    unfold withoutEmptyText at hw
    split at hw
    · cases hw
    · rw [hv, hw]
  · intro hv
    exact ⟨.str s, hv, withoutEmptyText_of_not_isEmpty (isEmpty_str_eq_false_iff.mpr hs)⟩

variable {rules : RuleMap} {method codes : String} {ctx : Context}

theorem extractFrom_of_extract (h : extract limit bags rules source = .ok data) :
    extractFrom limit bags source (rules.map fun r => (r.1, r.2.spec)) = .ok data := by
  unfold extract at h
  split at h
  · cases h
  · exact h

theorem extract_total (bags : Bags) (hrules : rules ≠ []) (source : String) :
    ∃ data, extract none bags rules source = .ok data := by
  rw [extract, List.isEmpty_eq_false_iff.mpr hrules]
  exact extractFrom_total bags source _

theorem nodup_names_of_extract (hrules : (Table.names rules).Nodup)
    (h : extract limit bags rules source = .ok data) : (Table.names data).Nodup := by
  have hsub := names_extractFrom (extractFrom_of_extract h)
  rw [List.map_map] at hsub
  exact List.Nodup.sublist hsub hrules

theorem partsOf_map (data : Table Value) : Validator.partsOf (.map data) = data :=
  Validator.partsOf_eq_fields (.map data)

theorem validated_eq_ok (h : validated limit bags rules method ctx codes = .ok data) :
    extract limit bags rules (defaultSource method) = .ok data ∧
      Validation.ofStruct ⟨ctx, codes⟩ rules data "" = ([], none) := by
  unfold validated at h
  dsimp only at h
  split at h
  · cases h
  next data' hdata =>
    split at h
    · cases h
    next errors herrors =>
      obtain ⟨⟨⟩, hraise, rfl⟩ := Outcome.map_eq_ok.mp h
      refine ⟨hdata, ?_⟩
      rw [raise_eq_ok.mp hraise] at herrors
      split at herrors
      · simp only [Validator.validate, partsOf_map] at herrors
        split at herrors
        · cases herrors
        next hstopped =>
          have hnil := ofList_eq_nil (Except.ok.inj herrors)
          exact Prod.ext hnil hstopped
      next hunknown =>
        exact absurd (List.isEmpty_iff.mpr (Except.ok.inj herrors)) hunknown

theorem checked_of_validated (hgroups : ∀ e ∈ rules, WellGrouped e.2.spec)
    (h : validated limit bags rules method ctx codes = .ok data) {name : String} {r : Rule}
    {v : Value} (hr : (name, r) ∈ rules) (hget : data.get? name = some v)
    (hv : v.isEmpty = false) :
    (∃ b, DeclaredType.base? r.spec.type = some b ∧ Validation.hasType b v = true) ∧
      ∃ label, Validation.checkCustom r.custom r.spec label name data = .ok () := by
  obtain ⟨-, hclean⟩ := validated_eq_ok h
  have hhas : data.has name = true := by simp [Table.has, hget]
  obtain ⟨label, o, ho⟩ := Validation.checkField_of_ofField
    (Validation.ofField_of_clean hclean (name, r) hr (hgroups _ hr) hhas)
  obtain ⟨htype, hcustom⟩ := Validation.custom_of_checkField ho hget hv
  exact ⟨htype, label, hcustom⟩

end FieldRules.Request
