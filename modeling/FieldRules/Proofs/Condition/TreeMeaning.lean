import FieldRules.Proofs.Condition.Meaning
import FieldRules.Proofs.Text.Pieces

namespace FieldRules

variable {E : String → Bool}

namespace Tree

def isNumbered (mark name : String) : Bool :=
  match Text.dropMark? mark.toList name.toList with
  | some rest => rest.all Text.isDigit
  | none => false

def opens? (name : String) : Option Connective :=
  if isNumbered "AND" name then some .and
  else if isNumbered "OR" name then some .or
  else none

mutual

def truth? (E : String → Bool) (kind : Connective) : Tree → Option Bool
  | leaf v => if v.truthy then some (E v.text) else none
  | fragment f => some (E f.expression)
  | group c => if c.parts.isEmpty then none else some (c.toPart.holds E)
  | list items => kind.combine? (itemTruths E items)
  | map entries => kind.combine? (namedTruths E entries)

def itemTruths (E : String → Bool) : List Tree → List Bool
  | [] => []
  | t :: ts => (truth? E .and t).toList ++ itemTruths E ts

def namedTruths (E : String → Bool) : List (String × Tree) → List Bool
  | [] => []
  | (name, t) :: es => (truth? E ((opens? name).getD .and) t).toList ++ namedTruths E es

end

def IsGroup : Tree → Prop
  | list _ => True
  | map _ => True
  | _ => False

mutual

def Sound : Tree → Prop
  | leaf v => v.truthy = true → ∃ s, v = .str s ∧ Text.Balanced s
  | fragment f => Text.Balanced f.expression
  | group c => Part.AllSound c.parts
  | list items => AllSound items
  | map entries => NamedSound entries

def AllSound : List Tree → Prop
  | [] => True
  | t :: ts => Sound t ∧ AllSound ts

def NamedSound : List (String × Tree) → Prop
  | [] => True
  | (name, t) :: es =>
    (Sound t ∧ ((opens? name).isSome = true → t.IsGroup ∨ t.truthy = false)) ∧ NamedSound es

end

theorem isNumbered_iff {mark name : String}
    (hmark : Text.trimEnd Text.isDigit mark.toList = mark.toList) :
    isNumbered mark name = true ↔ Text.trimEnd Text.isDigit name.toList = mark.toList := by
  unfold isNumbered
  constructor
  · intro h
    split at h
    next rest hrest =>
      rw [Text.dropMark?_eq_some hrest, Text.trimEnd_append _ (List.all_eq_true.mp h), hmark]
    next => cases h
  · intro h
    obtain ⟨ds, hds, hname⟩ := Text.exists_trimEnd Text.isDigit name.toList
    rw [h] at hname
    rw [hname, Text.dropMark?_self_append]
    exact List.all_eq_true.mpr hds

theorem connective?_eq_opens? (name : String) : connective? name = opens? name := by
  have hand : isNumbered "AND" name = true ↔ Text.trimEnd Text.isDigit name.toList = "AND".toList :=
    isNumbered_iff (by decide)
  have hor : isNumbered "OR" name = true ↔ Text.trimEnd Text.isDigit name.toList = "OR".toList :=
    isNumbered_iff (by decide)
  unfold connective? opens?
  by_cases hnumbered : isNumbered "AND" name = true
  · rw [if_pos hnumbered, hand.mp hnumbered]
    rfl
  · rw [if_neg hnumbered]
    by_cases hnumbered' : isNumbered "OR" name = true
    · rw [if_pos hnumbered', hor.mp hnumbered']
      rfl
    · rw [if_neg hnumbered']
      unfold Connective.ofText?
      split
      next h =>
        have hname := h.trans String.ofList_toList.symm
        exact absurd (hand.mpr (String.ofList_inj.mp hname)) hnumbered
      next h =>
        have hname := h.trans String.ofList_toList.symm
        exact absurd (hor.mpr (String.ofList_inj.mp hname)) hnumbered'
      next => rfl

def entryTruths (E : String → Bool) : Tree → List Bool
  | list items => itemTruths E items
  | map entries => namedTruths E entries
  | _ => []

theorem truth?_of_isGroup {t : Tree} (h : t.IsGroup) (kind : Connective) :
    t.truth? E kind = kind.combine? (t.entryTruths E) := by
  cases t with
  | list items => rfl
  | map entries => rfl
  | _ => exact h.elim

theorem truth?_of_not_truthy {t : Tree} (h : t.truthy = false) (kind : Connective) :
    t.truth? E kind = none := by
  cases t with
  | leaf v => rw [truth?, if_neg (by simpa [truthy] using h)]
  | fragment f => cases h
  | group c => rw [truth?, if_pos (by simpa [truthy] using h)]
  | list items =>
    obtain rfl : items = [] := by simpa [truthy] using h
    rfl
  | map entries =>
    obtain rfl : entries = [] := by simpa [truthy] using h
    rfl

def Stands (E : String → Bool) (ps : List Part) (truths : List Bool) : Prop :=
  ps.map (Part.holds E) = truths ∧ ∀ p ∈ ps, p.Sound

theorem Stands.nil : Stands E [] [] := ⟨rfl, by simp⟩

theorem Stands.singleton {p : Part} (hp : p.Sound) : Stands E [p] [p.holds E] :=
  ⟨rfl, by simpa using hp⟩

theorem Stands.append {ps qs : List Part} {bs cs : List Bool} (hp : Stands E ps bs)
    (hq : Stands E qs cs) : Stands E (ps ++ qs) (bs ++ cs) := by
  refine ⟨by rw [List.map_append, hp.1, hq.1], ?_⟩
  intro p hmem
  rcases List.mem_append.mp hmem with hmem | hmem
  · exact hp.2 p hmem
  · exact hq.2 p hmem

theorem Stands.grouped {ps : List Part} {bs : List Bool} (h : Stands E ps bs)
    (kind : Connective) : Stands E (Tree.grouped kind ps) (kind.combine? bs).toList := by
  obtain ⟨rfl, hsound⟩ := h
  cases ps with
  | nil => exact .nil
  | cons p ps =>
    have hgroup : (Part.group kind (p :: ps)).Sound :=
      ⟨List.cons_ne_nil p ps, Part.allSound_iff.mpr hsound⟩
    have hholds : (Part.group kind (p :: ps)).holds E =
        kind.combine ((p :: ps).map (Part.holds E)) := by
      rw [Part.holds, Part.holdsAll_eq_map]
    have hsingle := Stands.singleton (E := E) hgroup
    rw [hholds] at hsingle
    exact hsingle

theorem stands_entryParts {kind? : Option Connective} {t : Tree}
    {inside : Except Fault (List Part)} {ps : List Part} (ht : t.Sound)
    (hgroup : kind?.isSome = true → t.IsGroup ∨ t.truthy = false)
    (hinside : t.IsGroup → ∀ qs, inside = .ok qs → Stands E qs (t.entryTruths E))
    (h : entryParts kind? t inside = .ok ps) :
    Stands E ps (t.truth? E (kind?.getD .and)).toList := by
  have hopened : t.IsGroup → ∀ kind, inside.map (Tree.grouped kind) = .ok ps →
      Stands E ps (t.truth? E kind).toList := by
    intro hg kind hps
    obtain ⟨qs, hqs, rfl⟩ := Outcome.map_eq_ok.mp hps
    rw [truth?_of_isGroup hg]
    exact (hinside hg qs hqs).grouped kind
  cases htruthy : t.truthy with
  | false =>
    unfold entryParts at h
    rw [htruthy] at h
    cases h
    rw [truth?_of_not_truthy htruthy]
    exact .nil
  | true =>
    unfold entryParts at h
    rw [htruthy] at h
    cases kind? with
    | some kind =>
      rcases hgroup rfl with hg | hfalse
      · exact hopened hg kind h
      · rw [htruthy] at hfalse
        cases hfalse
    | none =>
      -- a sequence under a name that opens no group is still one, joined by AND
      cases t with
      | list items => exact hopened trivial .and h
      | map entries => exact hopened trivial .and h
      | leaf v =>
        cases h
        obtain ⟨s, rfl, hs⟩ := ht htruthy
        have hleaf : (Part.leaf (.str s)).Sound := hs
        rw [truth?, if_pos (show (Value.str s).truthy = true from htruthy)]
        exact .singleton hleaf
      | fragment f =>
        cases h
        have hfragment : (Part.fragment f).Sound := ht
        exact .singleton hfragment
      | group c =>
        cases h
        have hne : c.parts ≠ [] := by simpa [truthy] using htruthy
        have hsound : c.toPart.Sound := ⟨hne, ht⟩
        rw [truth?, if_neg (by simpa using hne)]
        exact .singleton hsound

mutual

theorem stands_parts (t : Tree) (ht : t.Sound) (hg : t.IsGroup) (ps : List Part)
    (h : parts t = .ok ps) : Stands E ps (t.entryTruths E) := by
  cases t with
  | list items => exact stands_itemParts items ht ps h
  | map entries => exact stands_namedParts entries ht ps h
  | _ => exact hg.elim

theorem stands_itemParts (ts : List Tree) (hsound : AllSound ts) (ps : List Part)
    (h : itemParts ts = .ok ps) : Stands E ps (itemTruths E ts) := by
  cases ts with
  | nil =>
    cases h
    exact .nil
  | cons t ts =>
    obtain ⟨ht, hts⟩ := hsound
    rw [itemParts] at h
    split at h
    · cases h
    next head hhead =>
      obtain ⟨rest, hrest, rfl⟩ := Outcome.map_eq_ok.mp h
      have hunnamed : (none : Option Connective).isSome = true → t.IsGroup ∨ t.truthy = false :=
        nofun
      have hfirst := stands_entryParts ht hunnamed (stands_parts t ht) hhead
      exact hfirst.append (stands_itemParts ts hts rest hrest)

theorem stands_namedParts (es : List (String × Tree)) (hsound : NamedSound es) (ps : List Part)
    (h : namedParts es = .ok ps) : Stands E ps (namedTruths E es) := by
  cases es with
  | nil =>
    cases h
    exact .nil
  | cons e es =>
    obtain ⟨name, t⟩ := e
    obtain ⟨⟨ht, hgroup⟩, hes⟩ := hsound
    rw [namedParts, connective?_eq_opens?] at h
    split at h
    · cases h
    next head hhead =>
      obtain ⟨rest, hrest, rfl⟩ := Outcome.map_eq_ok.mp h
      have hfirst := stands_entryParts ht hgroup (stands_parts t ht) hhead
      exact hfirst.append (stands_namedParts es hes rest hrest)

end

theorem truth?_of_compose (hE : ReadsGroups E) {t : Tree} (ht : t.Sound) (hg : t.IsGroup)
    {c? : Option Composite} (h : t.compose = .ok c?) :
    (c?.map Composite.text).map E = t.truth? E .and := by
  unfold compose at h
  split at h
  next hfalse =>
    cases h
    rw [truth?_of_not_truthy (by simpa using hfalse)]
    rfl
  next =>
    rw [truth?_of_isGroup hg]
    split at h
    · cases h
    next hparts =>
      cases h
      obtain ⟨htruths, -⟩ := stands_parts (E := E) t ht hg [] hparts
      rw [← htruths]
      rfl
    next ps hne hparts =>
      cases h
      obtain ⟨htruths, hsound⟩ := stands_parts (E := E) t ht hg ps hparts
      obtain ⟨p, rest, rfl⟩ := List.exists_cons_of_ne_nil hne
      have hgroup : (Part.group .and (p :: rest)).Sound :=
        ⟨List.cons_ne_nil p rest, Part.allSound_iff.mpr hsound⟩
      rw [← htruths, ← Part.holdsAll_eq_map]
      exact congrArg some (Part.holds_text hE (.group .and (p :: rest)) hgroup).1

end Tree

end FieldRules
