import FieldRules.Proofs.Condition.Meaning

namespace FieldRules

def groupTail (kind : Connective) : List String → List Char
  | [] => [')']
  | [s] => s.toList ++ [')']
  | s :: t :: rest =>
    s.toList ++ ')' :: ((' ' :: kind.text.toList ++ [' ', '(']) ++ groupTail kind (t :: rest))

theorem toList_bracketed (kind : Connective) (texts : List String) :
    (bracketed kind texts).toList = '(' :: groupTail kind texts := by
  have htail : (String.intercalate (") " ++ kind.text ++ " (") texts ++ ")").toList =
      groupTail kind texts := by
    induction texts with
    | nil => simp [groupTail]
    | cons s texts ih =>
      cases texts with
      | nil => simp [groupTail]
      | cons t texts =>
        rw [String.intercalate_cons_cons, groupTail, ← ih]
        simp [String.toList_append]
  rw [bracketed, String.append_assoc, String.toList_append, htail]
  rfl

theorem closing_unique {s t : String} {xs ys : List Char} (hs : Text.Balanced s)
    (ht : Text.Balanced t) (h : s.toList ++ ')' :: xs = t.toList ++ ')' :: ys) :
    s = t ∧ xs = ys := by
  have hlonger : ∀ {u w : String} {cs us ws : List Char}, Text.Balanced u → Text.Balanced w →
      w.toList = u.toList ++ cs → ')' :: us = cs ++ ')' :: ws → cs = [] := by
    intro u w cs us ws hu hw hcs hrest
    cases cs with
    | nil => rfl
    | cons c cs =>
      -- w would close a bracket right behind u, where none is open
      obtain rfl : ')' = c := (List.cons.inj hrest).1
      rw [Text.Balanced, hcs, Text.depth?_append, hu] at hw
      cases hw
  rcases List.append_eq_append_iff.mp h with ⟨cs, hcs, hrest⟩ | ⟨cs, hcs, hrest⟩
  · obtain rfl := hlonger hs ht hcs hrest
    rw [List.append_nil] at hcs
    exact ⟨String.toList_inj.mp hcs.symm, (List.cons.inj hrest).2⟩
  · obtain rfl := hlonger ht hs hcs hrest
    rw [List.append_nil] at hcs
    exact ⟨String.toList_inj.mp hcs, (List.cons.inj hrest).2.symm⟩

theorem groupTail_injective {kind kind' : Connective} {texts texts' : List String}
    (hne : texts ≠ []) (hne' : texts' ≠ []) (h : ∀ s ∈ texts, Text.Balanced s)
    (h' : ∀ s ∈ texts', Text.Balanced s) (heq : groupTail kind texts = groupTail kind' texts') :
    texts = texts' ∧ (2 ≤ texts.length → kind = kind') := by
  induction texts generalizing texts' with
  | nil => exact absurd rfl hne
  | cons s texts ih =>
    obtain ⟨s', texts', rfl⟩ := List.exists_cons_of_ne_nil hne'
    have hs : Text.Balanced s := h s List.mem_cons_self
    have hs' : Text.Balanced s' := h' s' List.mem_cons_self
    cases texts with
    | nil =>
      cases texts' with
      | nil =>
        obtain ⟨rfl, -⟩ := closing_unique hs hs' heq
        exact ⟨rfl, by simp⟩
      | cons t' texts' => cases (closing_unique hs hs' heq).2
    | cons t texts =>
      cases texts' with
      | nil => cases (closing_unique hs hs' heq).2
      | cons t' texts' =>
        obtain ⟨rfl, hrest⟩ := closing_unique hs hs' heq
        have hkind : kind = kind' := by
          cases kind <;> cases kind' <;> first | rfl | cases hrest
        subst hkind
        have htexts := ih (List.cons_ne_nil _ _) (List.cons_ne_nil _ _)
          (fun u hu => h u (List.mem_cons_of_mem _ hu))
          (fun u hu => h' u (List.mem_cons_of_mem _ hu)) (List.append_cancel_left hrest)
        rw [htexts.1]
        exact ⟨rfl, fun _ => rfl⟩

structure SpellsGroup (s : String) (kind : Connective) (texts : List String) : Prop where
  eq : s = bracketed kind texts
  several : 2 ≤ texts.length
  balanced : ∀ t ∈ texts, Text.Balanced t

theorem SpellsGroup.unique {s : String} {kind kind' : Connective} {texts texts' : List String}
    (h : SpellsGroup s kind texts) (h' : SpellsGroup s kind' texts') :
    kind = kind' ∧ texts = texts' := by
  have htails : groupTail kind texts = groupTail kind' texts' := by
    have heq := congrArg String.toList (h.eq.symm.trans h'.eq)
    rw [toList_bracketed, toList_bracketed] at heq
    exact (List.cons.inj heq).2
  have hne : texts ≠ [] := List.ne_nil_of_length_pos (by have := h.several; omega)
  have hne' : texts' ≠ [] := List.ne_nil_of_length_pos (by have := h'.several; omega)
  obtain ⟨htexts, hkind⟩ := groupTail_injective hne hne' h.balanced h'.balanced htails
  exact ⟨hkind h.several, htexts⟩

theorem length_lt_groupTail (kind : Connective) {s : String} {texts : List String}
    (h : s ∈ texts) : s.toList.length < (groupTail kind texts).length := by
  induction texts with
  | nil => cases h
  | cons t texts ih =>
    cases texts with
    | nil =>
      obtain rfl := List.mem_singleton.mp h
      simp [groupTail]
    | cons u texts =>
      rcases List.mem_cons.mp h with rfl | h
      · simp [groupTail]
      · have := ih h
        simp [groupTail]
        omega

theorem SpellsGroup.length_lt {s t : String} {kind : Connective} {texts : List String}
    (h : SpellsGroup s kind texts) (ht : t ∈ texts) : t.toList.length < s.toList.length := by
  rw [h.eq, toList_bracketed, List.length_cons]
  have := length_lt_groupTail kind ht
  omega

section

open Classical

noncomputable def reading (atom : String → Bool) (s : String) : Bool :=
  if h : ∃ group : Connective × List String, SpellsGroup s group.1 group.2 then
    h.choose.1.combine (h.choose.2.attach.map fun t => reading atom t.1)
  else atom s
termination_by s.toList.length
decreasing_by exact h.choose_spec.length_lt t.2

theorem reading_of_spells {atom : String → Bool} {s : String} {kind : Connective}
    {texts : List String} (h : SpellsGroup s kind texts) :
    reading atom s = kind.combine (texts.map (reading atom)) := by
  have hgroup : ∃ group : Connective × List String, SpellsGroup s group.1 group.2 :=
    ⟨(kind, texts), h⟩
  obtain ⟨hkind, htexts⟩ := hgroup.choose_spec.unique h
  rw [reading, dif_pos hgroup, List.attach_map_val, hkind, htexts]

theorem reading_of_atom {atom : String → Bool} {s : String}
    (h : ∀ kind texts, ¬SpellsGroup s kind texts) : reading atom s = atom s := by
  rw [reading, dif_neg]
  rintro ⟨group, hgroup⟩
  exact h _ _ hgroup

end

theorem readsGroups_reading (atom : String → Bool) : ReadsGroups (reading atom) := by
  intro kind texts htwo hbalanced
  exact reading_of_spells ⟨rfl, htwo, hbalanced⟩

end FieldRules
