import FieldRules.Validation.Validator

namespace FieldRules

namespace Errors

theorem raise_eq_ok {errors : Errors} : errors.raise = .ok () ↔ errors = [] := by
  unfold raise
  cases errors with
  | nil => simp
  | cons e errors =>
    simp only [List.isEmpty_cons, Bool.false_eq_true, if_false, reduceCtorEq, iff_false]
    split <;> simp

theorem raise_of_internal {errors : Errors}
    (h : (errors.any fun e => e.2.isInternal) = true) :
    ∃ details, errors.raise = .error (.misdeclared (.invalidRules details)) := by
  refine ⟨errors.map fun e => (e.1, e.2.toValue), ?_⟩
  cases errors with
  | nil => cases h
  | cons e errors =>
    simp only [raise, List.isEmpty_cons, h, if_true, Bool.false_eq_true, if_false]

theorem raise_of_not_internal {errors : Errors}
    (h : (errors.any fun e => e.2.isInternal) = false) :
    errors.raise = .ok () ∨
      ∃ details, errors.raise = .error (.rejected (.invalidFields details)) := by
  unfold raise
  cases errors with
  | nil => exact .inl rfl
  | cons e errors =>
    refine .inr ⟨(e :: errors).map fun e => (e.1, e.2.toValue), ?_⟩
    simp only [List.isEmpty_cons, h, Bool.false_eq_true, if_false]

theorem ofList_eq_nil {errors : List FieldError} (h : ofList errors = []) :
    errors = [] := by
  cases errors with
  | nil => rfl
  | cons e errors =>
    have hm : e.path ∈ Table.names (ofList (e :: errors)) := by
      rw [ofList, Table.ofEntries, Table.mem_names_merge]
      exact .inr (by simp [Table.names])
    rw [h] at hm
    simp [Table.names] at hm

theorem mem_ofList {errors : List FieldError} {e : String × FieldError}
    (h : e ∈ ofList errors) : e.2 ∈ errors := by
  have hn : (Table.names (ofList errors)).Nodup :=
    Table.nodup_names_merge (by simp [Table.names]) _
  have hget := Table.get?_of_mem hn h
  rcases Table.get?_merge_cases hget with hm | hm
  · obtain ⟨f, hf, he⟩ := List.mem_map.mp hm
    have : f = e.2 := congrArg Prod.snd he
    exact this ▸ hf
  · cases hm

theorem get?_ofList_iff {errors : List FieldError} {path : String} {e : FieldError}
    (h : ∀ e ∈ errors, ∀ f ∈ errors, e.path = f.path → e = f) :
    (ofList errors).get? path = some e ↔ e ∈ errors ∧ e.path = path := by
  have hkept : ∀ e, (ofList errors).get? path = some e → e ∈ errors ∧ e.path = path := by
    intro e he
    rcases Table.get?_merge_cases he with hm | hm
    · obtain ⟨f, hf, hpair⟩ := List.mem_map.mp hm
      obtain ⟨rfl, rfl⟩ := Prod.mk.inj hpair
      exact ⟨hf, rfl⟩
    · cases hm
  refine ⟨hkept e, ?_⟩
  rintro ⟨he, rfl⟩
  have hname : e.path ∈ Table.names (ofList errors) := by
    rw [ofList, Table.ofEntries, Table.mem_names_merge]
    exact .inr (List.mem_map.mpr ⟨_, List.mem_map.mpr ⟨e, he, rfl⟩, rfl⟩)
  cases hget : (ofList errors).get? e.path with
  | none => exact absurd hname ((Table.get?_eq_none_iff _ _).mp hget)
  | some f =>
    obtain ⟨hf, hpath⟩ := hkept f hget
    rw [h f hf e he hpath]

theorem mem_ofList_append {lead errors : List FieldError}
    (hn : (errors.map FieldError.path).Nodup) {e : FieldError} (he : e ∈ errors) :
    (e.path, e) ∈ ofList (lead ++ errors) := by
  have hnames : (Table.names (errors.map fun e => (e.path, e))).Nodup := by
    simpa [Table.names, Function.comp_def] using hn
  have hsplit : ofList (lead ++ errors) =
      Table.merge (ofList lead) (errors.map fun e => (e.path, e)) := by
    simp [ofList, Table.ofEntries, Table.merge]
  rw [hsplit]
  exact Table.mem_of_get?_eq_some
    (Table.get?_merge_of_mem hnames (List.mem_map.mpr ⟨e, he, rfl⟩))

theorem any_internal_iff {lead errors : List FieldError}
    (hlead : ∀ e ∈ lead, e.isInternal = false) (hn : (errors.map FieldError.path).Nodup) :
    ((ofList (lead ++ errors)).any fun e => e.2.isInternal) = true ↔
      ∃ e ∈ errors, e.isInternal = true := by
  rw [List.any_eq_true]
  constructor
  · rintro ⟨e, he, hinternal⟩
    rcases List.mem_append.mp (mem_ofList he) with hm | hm
    · rw [hlead _ hm] at hinternal
      cases hinternal
    · exact ⟨e.2, hm, hinternal⟩
  · rintro ⟨e, he, hinternal⟩
    exact ⟨_, mem_ofList_append hn he, hinternal⟩

end Errors

theorem Validator.partsOf_eq_fields (data : Value) : partsOf data = data.fields := by
  unfold partsOf
  split
  next => rfl
  next hfalse =>
    cases data with
    | map entries =>
      obtain rfl : entries = [] := by simpa [Value.truthy] using hfalse
      rfl
    | obj attributes => exact absurd rfl hfalse
    | _ => rfl

end FieldRules
