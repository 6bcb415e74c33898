import FieldRules.Fault

namespace FieldRules.Service

structure Metrics where
  results : Table Nat := []
  codes : Table Nat := []
  timings : Nat := 0
  deriving DecidableEq, Repr

namespace Metrics

def counterNames : List String := ["validations_total", "validation_errors_total"]

def timingName : String := "filter_compile_duration_seconds"

def knows (name : String) : Bool := counterNames.contains name || name == timingName

def increment (t : Table Nat) (name : String) : Table Nat := t.put name ((t.get? name).getD 0 + 1)

def record (m : Metrics) (codes : List String) : Metrics :=
  { m with
    results := increment m.results (if codes.isEmpty then "valid" else "invalid")
    codes := codes.foldl increment m.codes }

def timed (m : Metrics) (name : String) : Except Fault Metrics :=
  if name = timingName then .ok { m with timings := m.timings + 1 }
  else if counterNames.contains name then .error .noAttribute
  else .error .unknownName

def labelChar (c : Char) : List Char :=
  if c = '\\' then ['\\', '\\']
  else if c = '"' then ['\\', '"']
  else if c = '\n' then ['\\', 'n']
  else [c]

def labelText (s : String) : String := String.ofList (s.toList.flatMap labelChar)

def series (name label value : String) : String :=
  name ++ "\x7b" ++ label ++ "=\"" ++ labelText value ++ "\"\x7d"

def samples (m : Metrics) : List (String × Nat) :=
  m.results.map (fun e => (series "validations_total" "result" e.1, e.2)) ++
    m.codes.map (fun e => (series "validation_errors_total" "code" e.1, e.2)) ++
    [(timingName ++ "_count", m.timings)]

variable {m : Metrics} {t : Table Nat} {name other : String}

def countOf (t : Table Nat) (name : String) : Nat := (t.get? name).getD 0

theorem countOf_increment (t : Table Nat) (name other : String) :
    countOf (increment t name) other = countOf t other + if name = other then 1 else 0 := by
  unfold countOf increment
  rw [Table.get?_put]
  by_cases h : name = other
  · subst h
    simp
  · simp [h]

theorem countOf_foldl_increment (names : List String) (t : Table Nat) (name : String) :
    countOf (names.foldl increment t) name = countOf t name + names.count name := by
  induction names generalizing t with
  | nil => rfl
  | cons first names ih =>
    rw [List.foldl_cons, ih, countOf_increment, List.count_cons]
    by_cases h : first = name
    · simp only [h, if_true, beq_self_eq_true]
      omega
    · simp [h]

theorem nodup_foldl_increment (names : List String) (h : t.names.Nodup) :
    (names.foldl increment t).names.Nodup := by
  induction names generalizing t with
  | nil => exact h
  | cons name names ih => exact ih (Table.nodup_names_put h name _)

def recordAll (m : Metrics) (runs : List (List String)) : Metrics := runs.foldl record m

theorem countOf_codes_recordAll (m : Metrics) (runs : List (List String)) (code : String) :
    countOf (m.recordAll runs).codes code = countOf m.codes code + runs.flatten.count code := by
  induction runs generalizing m with
  | nil => rfl
  | cons codes runs ih =>
    rw [recordAll, List.foldl_cons, ← recordAll, ih, List.flatten_cons, List.count_append,
      ← Nat.add_assoc]
    exact congrArg (· + _) (countOf_foldl_increment codes m.codes code)

theorem countOf_results_recordAll (m : Metrics) (runs : List (List String)) :
    countOf (m.recordAll runs).results "valid" =
        countOf m.results "valid" + runs.countP List.isEmpty ∧
      countOf (m.recordAll runs).results "invalid" =
        countOf m.results "invalid" + runs.countP fun codes => !codes.isEmpty := by
  induction runs generalizing m with
  | nil => exact ⟨rfl, rfl⟩
  | cons codes runs ih =>
    obtain ⟨hvalid, hinvalid⟩ := ih (m.record codes)
    rw [recordAll, List.foldl_cons, ← recordAll, hvalid, hinvalid]
    simp only [record, countOf_increment, List.countP_cons]
    cases codes <;> simp <;> omega

def readLabel : List Char → List Char
  | '\\' :: 'n' :: cs => '\n' :: readLabel cs
  | '\\' :: c :: cs => c :: readLabel cs
  | c :: cs => c :: readLabel cs
  | [] => []

theorem readLabel_flatMap (cs : List Char) : readLabel (cs.flatMap labelChar) = cs := by
  induction cs with
  | nil => rfl
  | cons c cs ih =>
    rw [List.flatMap_cons, labelChar]
    split
    next hc =>
      subst hc
      exact congrArg _ ih
    next hbackslash =>
      split
      next hc =>
        subst hc
        exact congrArg _ ih
      next =>
        split
        next hc =>
          subst hc
          exact congrArg _ ih
        next =>
          have hread : readLabel (c :: cs.flatMap labelChar) =
              c :: readLabel (cs.flatMap labelChar) := by
            rw [readLabel.eq_def]
            split <;> simp_all
          exact hread.trans (congrArg _ ih)

theorem labelText_injective : Function.Injective labelText := by
  intro s s' h
  have hread := congrArg readLabel (String.ofList_injective h)
  rw [readLabel_flatMap, readLabel_flatMap] at hread
  exact String.toList_injective hread

theorem series_injective (name label : String) : Function.Injective (series name label) := by
  intro value value' h
  have hlist := congrArg String.toList h
  simp only [series, String.toList_append, List.append_assoc] at hlist
  have htext := List.append_cancel_right (List.append_cancel_left (List.append_cancel_left
    (List.append_cancel_left (List.append_cancel_left hlist))))
  exact labelText_injective (String.toList_injective htext)

theorem nodup_names_recordAll (runs : List (List String))
    (h : m.results.names.Nodup ∧ m.codes.names.Nodup) :
    (m.recordAll runs).results.names.Nodup ∧ (m.recordAll runs).codes.names.Nodup := by
  induction runs generalizing m with
  | nil => exact h
  | cons codes runs ih =>
    exact ih ⟨Table.nodup_names_put h.1 _ _, nodup_foldl_increment codes h.2⟩

/-- However often runs are recorded, every result and every code has one sample of its own. -/
theorem nodup_series_recordAll (runs : List (List String)) (name label : String) :
    ((recordAll {} runs).results.map fun e => series name label e.1).Nodup ∧
      ((recordAll {} runs).codes.map fun e => series name label e.1).Nodup := by
  obtain ⟨hresults, hcodes⟩ := nodup_names_recordAll (m := {}) runs ⟨List.nodup_nil, List.nodup_nil⟩
  have hseries : ∀ {t : Table Nat}, t.names.Nodup →
      (t.map fun e => series name label e.1).Nodup := by
    intro t ht
    have hmap : (t.map fun e => series name label e.1) = t.names.map (series name label) := by
      rw [Table.names, List.map_map]
      rfl
    rw [hmap]
    exact List.Pairwise.map _ (fun _ _ hne heq => hne (series_injective name label heq)) ht
  exact ⟨hseries hresults, hseries hcodes⟩

end Metrics

end FieldRules.Service
