import FieldRules.Text.Segment

namespace FieldRules.Text

variable {mark new cs out : List Char}

inductive Replaced (mark new : List Char) : List Char → List Char → Prop
  | nil : Replaced mark new [] []
  | keep {c : Char} {cs out : List Char} : ¬mark <+: c :: cs → Replaced mark new cs out →
      Replaced mark new (c :: cs) (c :: out)
  | swap {cs out : List Char} : Replaced mark new cs out →
      Replaced mark new (mark ++ cs) (new ++ out)

theorem dropMark?_self_append (mark rest : List Char) :
    dropMark? mark (mark ++ rest) = some rest := by
  induction mark with
  | nil => rfl
  | cons m mark ih => simpa [dropMark?] using ih

theorem isSome_dropMark?_iff : (dropMark? mark cs).isSome = true ↔ mark <+: cs := by
  constructor
  · intro h
    obtain ⟨rest, hrest⟩ := Option.isSome_iff_exists.mp h
    exact ⟨rest, (dropMark?_eq_some hrest).symm⟩
  · rintro ⟨rest, rfl⟩
    rw [dropMark?_self_append]
    rfl

theorem hasMark_iff : hasMark mark cs = true ↔ mark <:+: cs := by
  induction cs with
  | nil =>
    unfold hasMark fromMark?
    split
    next h => simp [h]
    next h => simp [h]
  | cons c cs ih =>
    unfold hasMark at ih ⊢
    rw [fromMark?, List.infix_cons_iff, ← isSome_dropMark?_iff]
    split
    next h => simp [h]
    next h => rw [ih]; simp [h]

theorem replaceFrom_append (skipped : List Char) :
    replaceFrom mark new skipped.length (skipped ++ cs) = replaceFrom mark new 0 cs := by
  induction skipped with
  | nil => rfl
  | cons c skipped ih => simpa [replaceFrom] using ih

theorem replace_mark_append (h : mark ≠ []) (cs : List Char) :
    replace mark new (mark ++ cs) = new ++ replace mark new cs := by
  cases mark with
  | nil => exact absurd rfl h
  | cons m mark =>
    have hfound : (dropMark? (m :: mark) (m :: (mark ++ cs))).isSome = true :=
      isSome_dropMark?_iff.mpr ⟨cs, rfl⟩
    have hskip : (m :: mark).length - 1 = mark.length := by simp
    rw [replace, List.cons_append, replaceFrom, if_pos hfound, hskip, replaceFrom_append]
    rfl

theorem replace_cons_of_ne {c : Char} (h : ¬mark <+: c :: cs) :
    replace mark new (c :: cs) = c :: replace mark new cs := by
  have hnone : ¬(dropMark? mark (c :: cs)).isSome = true := fun hs => h (isSome_dropMark?_iff.mp hs)
  rw [replace, replaceFrom, if_neg hnone]
  rfl

theorem replaced_replace (h : mark ≠ []) (cs : List Char) :
    Replaced mark new cs (replace mark new cs) := by
  induction hn : cs.length using Nat.strongRecOn generalizing cs with
  | ind n ih =>
    subst hn
    by_cases hp : mark <+: cs
    · obtain ⟨rest, rfl⟩ := hp
      have hlt : rest.length < (mark ++ rest).length := by
        have := List.length_pos_iff.mpr h
        simp
        omega
      rw [replace_mark_append h]
      exact .swap (ih rest.length hlt rest rfl)
    · cases cs with
      | nil => exact .nil
      | cons c cs =>
        rw [replace_cons_of_ne hp]
        exact .keep hp (ih cs.length (by simp) cs rfl)

end FieldRules.Text
