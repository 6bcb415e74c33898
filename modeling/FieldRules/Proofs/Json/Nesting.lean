import FieldRules.Json.Reader
import FieldRules.Fault

namespace FieldRules.Json

variable {α : Type} {fault : Fault} {j : Json} {cs : List Char} {depth deeper fuel : Nat}

-- Reading fails on a text that is no document and on one that is nested too deep.
inductive Unreadable : Fault → Prop
  | malformed : Unreadable malformed
  | tooDeep : Unreadable .tooDeep

theorem unreadable_of_required {found : Option α} (h : required found = .error fault) :
    Unreadable fault := by
  cases found with
  | none =>
    cases h
    exact .malformed
  | some => cases h

theorem unreadable_of_inside {read : Nat → Except Fault α}
    (hread : ∀ depth, read depth = .error fault → Unreadable fault)
    (h : inside depth read = .error fault) : Unreadable fault := by
  cases depth with
  | zero =>
    cases h
    exact .tooDeep
  | succ depth => exact hread depth h

section Step

variable (hvalue : ∀ {depth cs fault}, value fuel depth cs = .error fault → Unreadable fault)
  (hitems : ∀ {depth cs fault}, items fuel depth cs = .error fault → Unreadable fault)
  (hentries : ∀ {depth cs fault}, entries fuel depth cs = .error fault → Unreadable fault)

include hitems hentries in
theorem unreadable_of_value_succ (h : value (fuel + 1) depth cs = .error fault) :
    Unreadable fault := by
  unfold value at h
  split at h
  · exact unreadable_of_required (Outcome.map_eq_error.mp h)
  · refine unreadable_of_inside (fun depth h => ?_) h
    split at h
    · cases h
    · exact hitems (Outcome.map_eq_error.mp h)
  · refine unreadable_of_inside (fun depth h => ?_) h
    split at h
    · cases h
    · exact hentries (Outcome.map_eq_error.mp h)
  · exact unreadable_of_required h

include hvalue hitems in
theorem unreadable_of_items_succ (h : items (fuel + 1) depth cs = .error fault) :
    Unreadable fault := by
  unfold items at h
  split at h
  next hj =>
    cases h
    exact hvalue hj
  next =>
    split at h
    · cases h
    · exact hitems (Outcome.map_eq_error.mp h)
    · cases h
      exact .malformed

include hvalue hentries in
theorem unreadable_of_entries_succ (h : entries (fuel + 1) depth cs = .error fault) :
    Unreadable fault := by
  unfold entries at h
  split at h
  · split at h
    · cases h
      exact .malformed
    · split at h
      · split at h
        next hj =>
          cases h
          exact hvalue hj
        next =>
          split at h
          · cases h
          · exact hentries (Outcome.map_eq_error.mp h)
          · cases h
            exact .malformed
      · cases h
        exact .malformed
  · cases h
    exact .malformed

end Step

-- Documents, items and entries are read by one recursion, so its induction is on their fuel.
theorem unreadable_of_parts (fuel : Nat) : (∀ {depth cs fault},
      value fuel depth cs = .error fault → Unreadable fault) ∧
    (∀ {depth cs fault}, items fuel depth cs = .error fault → Unreadable fault) ∧
    ∀ {depth cs fault}, entries fuel depth cs = .error fault → Unreadable fault := by
  induction fuel with
  | zero => refine ⟨?_, ?_, ?_⟩ <;> rintro depth cs _ ⟨⟩ <;> exact .malformed
  | succ fuel ih =>
    obtain ⟨hvalue, hitems, hentries⟩ := ih
    exact ⟨unreadable_of_value_succ hitems hentries, unreadable_of_items_succ hvalue hitems,
      unreadable_of_entries_succ hvalue hentries⟩

theorem unreadable_of_read (h : read depth cs = .error fault) : Unreadable fault := by
  unfold read at h
  split at h
  next hvalue =>
    cases h
    exact (unreadable_of_parts _).1 hvalue
  next =>
    split at h
    · cases h
    · cases h
      exact .malformed

theorem value_of_nested (depth : Nat) (h : 2 * depth + 1 ≤ fuel) (rest : List Char) :
    value fuel depth (List.replicate (depth + 1) '[' ++ rest) = .error .tooDeep := by
  induction depth generalizing fuel with
  | zero =>
    obtain ⟨fuel, rfl⟩ := Nat.exists_eq_add_of_le' h
    rfl
  | succ depth ih =>
    obtain ⟨fuel, rfl⟩ := Nat.exists_eq_add_of_le' (show 2 ≤ fuel by omega)
    have hvalue : value fuel depth (List.replicate (depth + 1) '[' ++ rest) = .error .tooDeep :=
      ih (by omega)
    have hitems : items (fuel + 1) depth (List.replicate (depth + 1) '[' ++ rest) =
        .error .tooDeep := by
      rw [items, hvalue]
    exact congrArg (Except.map _) hitems

theorem read_of_nested (depth : Nat) (rest : List Char) :
    read depth (List.replicate (depth + 1) '[' ++ rest) = .error .tooDeep := by
  have hskip : skipSpace (List.replicate (depth + 1) '[' ++ rest) =
      List.replicate (depth + 1) '[' ++ rest := rfl
  have hfuel : 2 * depth + 1 ≤ 2 * (List.replicate (depth + 1) '[' ++ rest).length + 2 := by
    simp only [List.length_append, List.length_replicate]
    omega
  rw [read, hskip, value_of_nested depth hfuel]

theorem inside_of_le {read : Nat → Except Fault α} {a : α} (hle : depth ≤ deeper)
    (hread : ∀ {depth deeper}, depth ≤ deeper → read depth = .ok a → read deeper = .ok a)
    (h : inside depth read = .ok a) : inside deeper read = .ok a := by
  cases depth with
  | zero => cases h
  | succ depth =>
    cases deeper with
    | zero => cases hle
    | succ deeper => exact hread (Nat.le_of_succ_le_succ hle) h

section Step

variable (hvalue : ∀ {depth deeper cs found}, depth ≤ deeper →
    value fuel depth cs = .ok found → value fuel deeper cs = .ok found)
  (hitems : ∀ {depth deeper cs found}, depth ≤ deeper →
    items fuel depth cs = .ok found → items fuel deeper cs = .ok found)
  (hentries : ∀ {depth deeper cs found}, depth ≤ deeper →
    entries fuel depth cs = .ok found → entries fuel deeper cs = .ok found)

include hitems hentries in
theorem value_succ_of_le {found} (hle : depth ≤ deeper)
    (h : value (fuel + 1) depth cs = .ok found) : value (fuel + 1) deeper cs = .ok found := by
  unfold value at h ⊢
  split at h
  · exact h
  · refine inside_of_le hle (fun hle h => ?_) h
    split at h
    · exact h
    · obtain ⟨found, hfound, rfl⟩ := Outcome.map_eq_ok.mp h
      rw [hitems hle hfound]
      rfl
  · refine inside_of_le hle (fun hle h => ?_) h
    split at h
    · exact h
    · obtain ⟨found, hfound, rfl⟩ := Outcome.map_eq_ok.mp h
      rw [hentries hle hfound]
      rfl
  · exact h

include hvalue hitems in
theorem items_succ_of_le {found} (hle : depth ≤ deeper)
    (h : items (fuel + 1) depth cs = .ok found) : items (fuel + 1) deeper cs = .ok found := by
  unfold items at h ⊢
  cases hj : value fuel depth cs with
  | error =>
    rw [hj] at h
    cases h
  | ok first =>
    rw [hj] at h
    rw [hvalue hle hj]
    dsimp only at h ⊢
    generalize skipSpace first.2 = tail at h ⊢
    split at h
    · exact h
    · obtain ⟨found, hfound, rfl⟩ := Outcome.map_eq_ok.mp h
      rw [hitems hle hfound]
      rfl
    · cases h

include hvalue hentries in
theorem entries_succ_of_le {found} (hle : depth ≤ deeper)
    (h : entries (fuel + 1) depth cs = .ok found) : entries (fuel + 1) deeper cs = .ok found := by
  unfold entries at h ⊢
  split at h
  next cs =>
    generalize text? cs = named at h ⊢
    split at h
    · cases h
    next name rest =>
      dsimp only
      generalize skipSpace rest = tail at h ⊢
      split at h
      next rest =>
        cases hj : value fuel depth (skipSpace rest) with
        | error =>
          rw [hj] at h
          cases h
        | ok first =>
          rw [hj] at h
          rw [hvalue hle hj]
          dsimp only at h ⊢
          generalize skipSpace first.2 = tail at h ⊢
          split at h
          · exact h
          · obtain ⟨found, hfound, rfl⟩ := Outcome.map_eq_ok.mp h
            rw [hentries hle hfound]
            rfl
          · cases h
      · cases h
  · cases h

end Step

theorem parts_of_le (fuel : Nat) : (∀ {depth deeper cs found}, depth ≤ deeper →
      value fuel depth cs = .ok found → value fuel deeper cs = .ok found) ∧
    (∀ {depth deeper cs found}, depth ≤ deeper →
      items fuel depth cs = .ok found → items fuel deeper cs = .ok found) ∧
    ∀ {depth deeper cs found}, depth ≤ deeper →
      entries fuel depth cs = .ok found → entries fuel deeper cs = .ok found := by
  induction fuel with
  | zero => refine ⟨?_, ?_, ?_⟩ <;> rintro depth deeper cs found - ⟨⟩
  | succ fuel ih =>
    obtain ⟨hvalue, hitems, hentries⟩ := ih
    exact ⟨value_succ_of_le hitems hentries, items_succ_of_le hvalue hitems,
      entries_succ_of_le hvalue hentries⟩

theorem read_of_le (hle : depth ≤ deeper) (h : read depth cs = .ok j) :
    read deeper cs = .ok j := by
  unfold read at h ⊢
  split at h
  · cases h
  next hvalue =>
    rw [(parts_of_le _).1 hle hvalue]
    exact h

end FieldRules.Json
