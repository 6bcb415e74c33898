import FieldRules.Text.Segment

namespace FieldRules.Text

variable {sep : Char}

theorem cutAt_append_cons {low : List Char} (h : sep ∉ low) (high : List Char) :
    cutAt sep (low ++ sep :: high) = (low, some high) := by
  induction low with
  | nil => simp [cutAt]
  | cons c low ih =>
    have hc : c ≠ sep ∧ sep ∉ low := by simpa [eq_comm] using h
    simp [cutAt, hc.1, ih hc.2]

theorem cutAt_of_not_mem {cs : List Char} (h : sep ∉ cs) : cutAt sep cs = (cs, none) := by
  induction cs with
  | nil => rfl
  | cons c cs ih =>
    have hc : c ≠ sep ∧ sep ∉ cs := by simpa [eq_comm] using h
    simp [cutAt, hc.1, ih hc.2]

theorem splitOn_of_not_mem {cs : List Char} (h : sep ∉ cs) : splitOn sep cs = [cs] := by
  induction cs with
  | nil => rfl
  | cons c cs ih =>
    have hc : c ≠ sep ∧ sep ∉ cs := by simpa [eq_comm] using h
    simp [splitOn, hc.1, ih hc.2]

theorem splitOn_append_cons {low : List Char} (h : sep ∉ low) (high : List Char) :
    splitOn sep (low ++ sep :: high) = low :: splitOn sep high := by
  induction low with
  | nil => simp [splitOn]
  | cons c low ih =>
    have hc : c ≠ sep ∧ sep ∉ low := by simpa [eq_comm] using h
    simp [splitOn, hc.1, ih hc.2]

theorem divided_or_not_mem (sep : Char) (cs : List Char) :
    sep ∉ cs ∨ ∃ low high, sep ∉ low ∧ cs = low ++ sep :: high := by
  induction cs with
  | nil => exact .inl (by simp)
  | cons c cs ih =>
    by_cases hc : c = sep
    · subst hc
      exact .inr ⟨[], cs, by simp, rfl⟩
    · rcases ih with hn | ⟨low, high, hl, rfl⟩
      · exact .inl (by simp [hn, Ne.symm hc])
      · exact .inr ⟨c :: low, high, by simp [hl, Ne.symm hc], rfl⟩

theorem splitOn_eq_pair {cs : List Char} (h : (splitOn sep cs).length = 2) :
    ∃ low high, sep ∉ low ∧ sep ∉ high ∧ cs = low ++ sep :: high := by
  rcases divided_or_not_mem sep cs with hn | ⟨low, high, hl, rfl⟩
  · simp [splitOn_of_not_mem hn] at h
  · rcases divided_or_not_mem sep high with hn | ⟨low', high', hl', rfl⟩
    · exact ⟨low, high, hl, hn, rfl⟩
    · rw [splitOn_append_cons hl, splitOn_append_cons hl'] at h
      have := List.length_pos_iff.mpr (splitOn_ne_nil sep high')
      simp only [List.length_cons] at h
      omega

theorem cut_unique {p p' r r' : List Char} (hp : sep ∉ p) (hp' : sep ∉ p')
    (h : p ++ sep :: r = p' ++ sep :: r') : p = p' ∧ r = r' := by
  have hcut := congrArg (cutAt sep) h
  rw [cutAt_append_cons hp, cutAt_append_cons hp'] at hcut
  obtain ⟨rfl, hr⟩ := Prod.mk.inj hcut
  exact ⟨rfl, Option.some.inj hr⟩

theorem trimEnd_append {p : Char → Bool} (cs : List Char) {ds : List Char}
    (h : ∀ d ∈ ds, p d = true) : trimEnd p (cs ++ ds) = trimEnd p cs := by
  have hds : ∀ d ∈ ds.reverse, p d = true := fun d hd => h d (List.mem_reverse.mp hd)
  simp [trimEnd, List.dropWhile_append_of_pos hds]

theorem exists_trimEnd (p : Char → Bool) (cs : List Char) :
    ∃ ds, (∀ d ∈ ds, p d = true) ∧ cs = trimEnd p cs ++ ds := by
  refine ⟨(cs.reverse.takeWhile p).reverse, ?_, ?_⟩
  · intro d hd
    exact List.all_eq_true.mp List.all_takeWhile d (List.mem_reverse.mp hd)
  · rw [trimEnd, ← List.reverse_append, List.takeWhile_append_dropWhile, List.reverse_reverse]

end FieldRules.Text
