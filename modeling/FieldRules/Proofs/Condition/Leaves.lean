import FieldRules.Proofs.Condition.TreeMeaning

namespace FieldRules

variable {ps qs ls low high : List Part}

namespace Part

/-- The leaves of parts, read through the groups among them; what is read as a leaf is whole. -/
inductive OpensTo : List Part → List Part → Prop
  | nil : OpensTo [] []
  | whole (p : Part) {ps ls : List Part} (h : OpensTo ps ls) : OpensTo (p :: ps) (p :: ls)
  | opened (kind : Connective) {inner low ps high : List Part} (hinner : OpensTo inner low)
      (h : OpensTo ps high) : OpensTo (.group kind inner :: ps) (low ++ high)

theorem OpensTo.single (p : Part) : OpensTo [p] [p] := .whole p .nil

theorem OpensTo.group (kind : Connective) (h : OpensTo ps ls) : OpensTo [.group kind ps] ls := by
  simpa using OpensTo.opened kind h .nil

theorem OpensTo.append (hlow : OpensTo ps low) (hhigh : OpensTo qs high) :
    OpensTo (ps ++ qs) (low ++ high) := by
  induction hlow with
  | nil => exact hhigh
  | whole p _ ih => exact .whole p ih
  | opened kind hinner _ _ ih =>
    rw [List.append_assoc]
    exact .opened kind hinner ih

mutual

def size : Part → Nat
  | leaf _ => 1
  | fragment _ => 1
  | group _ parts => sizeAll parts

def sizeAll : List Part → Nat
  | [] => 0
  | p :: ps => size p + sizeAll ps

end

theorem sizeAll_append (ps qs : List Part) : sizeAll (ps ++ qs) = sizeAll ps + sizeAll qs := by
  induction ps with
  | nil => simp [sizeAll]
  | cons p ps ih => simp [sizeAll, ih, Nat.add_assoc]

theorem sizeAll_map_leaf (vs : List Value) : sizeAll (vs.map leaf) = vs.length := by
  induction vs with
  | nil => rfl
  | cons v vs ih => simp [sizeAll, size, ih, Nat.add_comm]

theorem OpensTo.sizeAll_eq (h : OpensTo ps ls) : sizeAll ps = sizeAll ls := by
  induction h with
  | nil => rfl
  | whole p _ ih => rw [sizeAll, sizeAll, ih]
  | opened kind _ _ ihinner ih => rw [sizeAll, size, sizeAll_append, ihinner, ih]

end Part

namespace Tree

def IsCondition : Tree → Prop
  | leaf v => ∃ s, v = .str s ∧ s ≠ ""
  | fragment f => f.expression ≠ ""
  | group c => c.parts ≠ []
  | _ => False

inductive OfConditions : Tree → Prop
  | condition {t : Tree} (h : t.IsCondition) : OfConditions t
  | list {items : List Tree} (h : ∀ t ∈ items, OfConditions t) : OfConditions (list items)
  | map {entries : List (String × Tree)} (h : ∀ e ∈ entries, OfConditions e.2) :
      OfConditions (map entries)

mutual

def leaves : Tree → List Part
  | leaf v => [.leaf v]
  | fragment f => [.fragment f]
  | group c => [c.toPart]
  | list items => itemLeaves items
  | map entries => namedLeaves entries

def itemLeaves : List Tree → List Part
  | [] => []
  | t :: ts => leaves t ++ itemLeaves ts

def namedLeaves : List (String × Tree) → List Part
  | [] => []
  | (_, t) :: es => leaves t ++ namedLeaves es

end

/-- A condition that is not kept when it is walked through: any but a single character. -/
def Fragile (t : Tree) : Prop :=
  t.IsCondition ∧ ∀ c : Char, t ≠ leaf (.str (String.singleton c))

inductive WellPlaced : Tree → Prop
  | single {t : Tree} (h : ¬t.IsGroup) : WellPlaced t
  | list {items : List Tree} (h : ∀ t ∈ items, WellPlaced t) : WellPlaced (list items)
  | map {entries : List (String × Tree)}
      (hnamed : ∀ e ∈ entries, (opens? e.1).isSome = true → ¬e.2.Fragile)
      (h : ∀ e ∈ entries, WellPlaced e.2) : WellPlaced (map entries)

theorem wellPlaced_list_iff {ts : List Tree} :
    (list ts).WellPlaced ↔ ∀ t ∈ ts, t.WellPlaced := by
  constructor
  · intro h
    cases h with
    | single h => exact absurd trivial h
    | list h => exact h
  · exact .list

theorem wellPlaced_map_iff {es : List (String × Tree)} : (map es).WellPlaced ↔
    ∀ e ∈ es, ((opens? e.1).isSome = true → ¬e.2.Fragile) ∧ e.2.WellPlaced := by
  constructor
  · intro h
    cases h with
    | single h => exact absurd trivial h
    | map hnamed h => exact fun e he => ⟨hnamed e he, h e he⟩
  · exact fun h => .map (fun e he => (h e he).1) fun e he => (h e he).2

def HoldsLeaves : Option Composite → List Part → Prop
  | none, ls => ls = []
  | some c, ls => ls ≠ [] ∧ Part.OpensTo c.parts ls

/-- The tree is composed, and no leaf of it is lost, repeated or taken to pieces. -/
def KeepsLeaves (t : Tree) : Prop :=
  ∃ c?, t.compose = .ok c? ∧ HoldsLeaves c? t.leaves

def Intact (ps ls : List Part) : Prop := Part.OpensTo ps ls ∧ (ps = [] ↔ ls = [])

theorem Intact.nil : Intact [] [] := ⟨.nil, Iff.rfl⟩

theorem Intact.single (p : Part) : Intact [p] [p] := ⟨.single p, by simp⟩

theorem Intact.append (hlow : Intact ps low) (hhigh : Intact qs high) :
    Intact (ps ++ qs) (low ++ high) :=
  ⟨hlow.1.append hhigh.1, by simp [hlow.2, hhigh.2]⟩

theorem Intact.grouped (h : Intact ps ls) (kind : Connective) :
    Intact (Tree.grouped kind ps) ls := by
  cases ps with
  | nil => exact h
  | cons p ps => exact ⟨h.1.group kind, by simpa [Tree.grouped] using h.2⟩

theorem ofConditions_list_iff {ts : List Tree} :
    (list ts).OfConditions ↔ ∀ t ∈ ts, t.OfConditions := by
  constructor
  · intro h
    cases h with
    | condition h => exact h.elim
    | list h => exact h
  · exact .list

theorem ofConditions_map_iff {es : List (String × Tree)} :
    (map es).OfConditions ↔ ∀ e ∈ es, e.2.OfConditions := by
  constructor
  · intro h
    cases h with
    | condition h => exact h.elim
    | map h => exact h
  · exact .map

theorem ofConditions_iff {t : Tree} (hg : ¬t.IsGroup) : t.OfConditions ↔ t.IsCondition := by
  constructor
  · intro h
    cases h with
    | condition h => exact h
    | list => exact absurd trivial hg
    | map => exact absurd trivial hg
  · exact .condition

theorem IsCondition.truthy {t : Tree} (h : t.IsCondition) : t.truthy = true := by
  cases t with
  | leaf v =>
    obtain ⟨s, rfl, hs⟩ := h
    simpa [Tree.truthy, Value.truthy] using hs
  | fragment f => rfl
  | group c => simpa [Tree.truthy, IsCondition] using h
  | _ => exact h.elim

theorem eq_nil_of_not_truthy {t : Tree} (h : t.OfConditions) (hfalse : t.truthy = false) :
    t = list [] ∨ t = map [] := by
  cases h with
  | condition h => rw [h.truthy] at hfalse; cases hfalse
  | @list items => exact .inl (by simpa [truthy] using hfalse)
  | @map entries => exact .inr (by simpa [truthy] using hfalse)

theorem leafParts_str (s : String) : leafParts (.str s) =
    .ok ((s.toList.map fun c => Value.str (String.singleton c)).map Part.leaf) := by
  have hall : ∀ v ∈ s.toList.map (fun c => Value.str (String.singleton c)), v.truthy = true := by
    intro v hv
    obtain ⟨c, -, rfl⟩ := List.mem_map.mp hv
    simp [Value.truthy, String.singleton_ne_empty]
  simp only [leafParts, Value.elements?, List.filter_eq_self.mpr hall]

theorem leafParts_singleton (c : Char) :
    leafParts (.str (String.singleton c)) = .ok [.leaf (.str (String.singleton c))] := by
  rw [leafParts_str, String.toList_singleton]
  rfl

theorem parts_of_not_fragile {t : Tree} (ht : t.IsCondition) (hf : ¬t.Fragile) :
    parts t = .ok t.leaves := by
  have hsingle : ∃ c : Char, t = leaf (.str (String.singleton c)) := by
    simpa [Fragile, ht] using hf
  obtain ⟨c, rfl⟩ := hsingle
  exact leafParts_singleton c

theorem size_of_fragile {t : Tree} (ht : t.Fragile) (h : parts t = .ok ps) :
    Part.sizeAll t.leaves < Part.sizeAll ps := by
  obtain ⟨hcondition, hne⟩ := ht
  cases t with
  | leaf v =>
    obtain ⟨s, rfl, hs⟩ := hcondition
    obtain rfl := Except.ok.inj ((leafParts_str s).symm.trans h)
    rw [Part.sizeAll_map_leaf, List.length_map]
    have hone : s.toList.length ≠ 1 := by
      intro hlen
      obtain ⟨c, hc⟩ := List.length_eq_one_iff.mp hlen
      refine hne c ?_
      rw [← String.ofList_toList (s := s), hc]
      rfl
    have hzero : s.toList.length ≠ 0 := by simpa using hs
    have hleaf : Part.sizeAll (leaf (.str s)).leaves = 1 := rfl
    omega
  | fragment f => cases h  -- no entries to walk through: refused
  | group c => cases h
  | _ => exact hcondition.elim

theorem not_fragile_of_isGroup {t : Tree} (h : t.IsGroup) : ¬t.Fragile := by
  rintro ⟨hcondition, -⟩
  cases t with
  | list items => exact hcondition
  | map entries => exact hcondition
  | _ => exact h

theorem intact_entryParts {kind? : Option Connective} {t : Tree} (ht : t.OfConditions)
    (hf : kind?.isSome = true → ¬t.Fragile)
    (hinside : ¬t.Fragile → ∃ qs, parts t = .ok qs ∧ Intact qs t.leaves) :
    ∃ ps, entryParts kind? t (parts t) = .ok ps ∧ Intact ps t.leaves := by
  have hopened : ¬t.Fragile → ∀ kind,
      ∃ ps, (parts t).map (Tree.grouped kind) = .ok ps ∧ Intact ps t.leaves := by
    intro hwalked kind
    obtain ⟨qs, hparts, hqs⟩ := hinside hwalked
    exact ⟨_, by rw [hparts]; rfl, hqs.grouped kind⟩
  cases htruthy : t.truthy with
  | false =>
    rcases eq_nil_of_not_truthy ht htruthy with rfl | rfl
    · exact ⟨[], rfl, .nil⟩
    · exact ⟨[], rfl, .nil⟩
  | true =>
    unfold entryParts
    rw [htruthy]
    cases kind? with
    | some kind => exact hopened (hf rfl) kind
    | none =>
      -- only a list or a map is walked through under a name that opens no group
      cases t with
      | list items => exact hopened (not_fragile_of_isGroup trivial) .and
      | map entries => exact hopened (not_fragile_of_isGroup trivial) .and
      | leaf v => exact ⟨_, rfl, .single _⟩
      | fragment f => exact ⟨_, rfl, .single _⟩
      | group c => exact ⟨_, rfl, .single _⟩

mutual

theorem intact_parts (t : Tree) (ht : t.OfConditions) (hf : ¬t.Fragile) (hplaced : t.WellPlaced) :
    ∃ ps, parts t = .ok ps ∧ Intact ps t.leaves := by
  cases t with
  | list items =>
    exact intact_itemParts items (ofConditions_list_iff.mp ht) (wellPlaced_list_iff.mp hplaced)
  | map entries =>
    exact intact_namedParts entries (ofConditions_map_iff.mp ht) (wellPlaced_map_iff.mp hplaced)
  | _ => exact ⟨_, parts_of_not_fragile ((ofConditions_iff id).mp ht) hf, .single _⟩

theorem intact_itemParts (ts : List Tree) (hts : ∀ t ∈ ts, t.OfConditions)
    (hplaced : ∀ t ∈ ts, t.WellPlaced) :
    ∃ ps, itemParts ts = .ok ps ∧ Intact ps (itemLeaves ts) := by
  cases ts with
  | nil => exact ⟨[], rfl, .nil⟩
  | cons t ts =>
    obtain ⟨ht, hts⟩ := List.forall_mem_cons.mp hts
    obtain ⟨hpt, hpts⟩ := List.forall_mem_cons.mp hplaced
    obtain ⟨ps, hps, hfirst⟩ := @intact_entryParts none t ht nofun
      fun hf => intact_parts t ht hf hpt
    obtain ⟨qs, hqs, hrest⟩ := intact_itemParts ts hts hpts
    refine ⟨ps ++ qs, ?_, hfirst.append hrest⟩
    rw [itemParts, hps, hqs]
    rfl

theorem intact_namedParts (es : List (String × Tree)) (hes : ∀ e ∈ es, e.2.OfConditions)
    (hplaced : ∀ e ∈ es, ((opens? e.1).isSome = true → ¬e.2.Fragile) ∧ e.2.WellPlaced) :
    ∃ ps, namedParts es = .ok ps ∧ Intact ps (namedLeaves es) := by
  cases es with
  | nil => exact ⟨[], rfl, .nil⟩
  | cons e es =>
    obtain ⟨name, t⟩ := e
    obtain ⟨ht, hes⟩ := List.forall_mem_cons.mp hes
    obtain ⟨⟨hfragile, hpt⟩, hpes⟩ := List.forall_mem_cons.mp hplaced
    obtain ⟨ps, hps, hfirst⟩ := intact_entryParts ht hfragile
      fun hf => intact_parts t ht hf hpt
    obtain ⟨qs, hqs, hrest⟩ := intact_namedParts es hes hpes
    refine ⟨ps ++ qs, ?_, hfirst.append hrest⟩
    rw [namedParts, connective?_eq_opens?, hps, hqs]
    rfl

end

def Matched (ps ls : List Part) (kept : Prop) : Prop :=
  Part.sizeAll ls ≤ Part.sizeAll ps ∧ (Part.sizeAll ps = Part.sizeAll ls → kept)

theorem Matched.imp {kept kept' : Prop} (h : Matched ps ls kept) (himp : kept → kept') :
    Matched ps ls kept' := ⟨h.1, fun heq => himp (h.2 heq)⟩

theorem Matched.append {kept kept' : Prop} (hlow : Matched ps low kept)
    (hhigh : Matched qs high kept') : Matched (ps ++ qs) (low ++ high) (kept ∧ kept') := by
  obtain ⟨hle, hkept⟩ := hlow
  obtain ⟨hle', hkept'⟩ := hhigh
  rw [Matched, Part.sizeAll_append, Part.sizeAll_append]
  refine ⟨by omega, fun heq => ?_⟩
  -- neither half can make up for the other
  exact ⟨hkept (by omega), hkept' (by omega)⟩

theorem sizeAll_grouped (kind : Connective) (ps : List Part) :
    Part.sizeAll (Tree.grouped kind ps) = Part.sizeAll ps := by
  cases ps with
  | nil => rfl
  | cons p ps => rfl

theorem matched_condition {t : Tree} (ht : t.IsCondition) (hg : ¬t.IsGroup)
    (h : parts t = .ok ps) : Matched ps t.leaves (¬t.Fragile ∧ t.WellPlaced) := by
  by_cases hf : t.Fragile
  · have hlt := size_of_fragile hf h
    exact ⟨Nat.le_of_lt hlt, fun heq => absurd heq (Nat.ne_of_gt hlt)⟩
  · obtain rfl := Except.ok.inj ((parts_of_not_fragile ht hf).symm.trans h)
    exact ⟨Nat.le_refl _, fun _ => ⟨hf, .single hg⟩⟩

theorem matched_entryParts {kind? : Option Connective} {t : Tree} (ht : t.OfConditions)
    (hinside : ∀ qs, parts t = .ok qs → Matched qs t.leaves (¬t.Fragile ∧ t.WellPlaced))
    (h : entryParts kind? t (parts t) = .ok ps) :
    Matched ps t.leaves ((kind?.isSome = true → ¬t.Fragile) ∧ t.WellPlaced) := by
  have hopened : ∀ kind, (parts t).map (Tree.grouped kind) = .ok ps →
      Matched ps t.leaves ((kind?.isSome = true → ¬t.Fragile) ∧ t.WellPlaced) := by
    intro kind hps
    obtain ⟨qs, hqs, rfl⟩ := Outcome.map_eq_ok.mp hps
    rw [Matched, sizeAll_grouped]
    exact (hinside qs hqs).imp fun hkept => ⟨fun _ => hkept.1, hkept.2⟩
  cases htruthy : t.truthy with
  | false =>
    rcases eq_nil_of_not_truthy ht htruthy with rfl | rfl
    · cases h
      exact ⟨Nat.le_refl _, fun _ => ⟨fun _ => not_fragile_of_isGroup trivial, .list nofun⟩⟩
    · cases h
      exact ⟨Nat.le_refl _, fun _ => ⟨fun _ => not_fragile_of_isGroup trivial, .map nofun nofun⟩⟩
  | true =>
    unfold entryParts at h
    rw [htruthy] at h
    cases kind? with
    | some kind => exact hopened kind h
    | none =>
      cases t with
      | list items => exact hopened .and h
      | map entries => exact hopened .and h
      | _ =>
        cases h
        exact ⟨Nat.le_refl _, fun _ => ⟨nofun, .single id⟩⟩

mutual

theorem matched_parts (t : Tree) (ht : t.OfConditions) (ps : List Part) (h : parts t = .ok ps) :
    Matched ps t.leaves (¬t.Fragile ∧ t.WellPlaced) := by
  cases t with
  | list items =>
    exact (matched_itemParts items (ofConditions_list_iff.mp ht) ps h).imp fun hplaced =>
      ⟨not_fragile_of_isGroup trivial, .list hplaced⟩
  | map entries =>
    exact (matched_namedParts entries (ofConditions_map_iff.mp ht) ps h).imp fun hplaced =>
      ⟨not_fragile_of_isGroup trivial, wellPlaced_map_iff.mpr hplaced⟩
  | _ => exact matched_condition ((ofConditions_iff id).mp ht) id h

theorem matched_itemParts (ts : List Tree) (hts : ∀ t ∈ ts, t.OfConditions) (ps : List Part)
    (h : itemParts ts = .ok ps) : Matched ps (itemLeaves ts) (∀ t ∈ ts, t.WellPlaced) := by
  cases ts with
  | nil =>
    cases h
    exact ⟨Nat.le_refl _, fun _ => nofun⟩
  | cons t ts =>
    obtain ⟨ht, hts⟩ := List.forall_mem_cons.mp hts
    rw [itemParts] at h
    split at h
    · cases h
    next head hhead =>
      obtain ⟨rest, hrest, rfl⟩ := Outcome.map_eq_ok.mp h
      have hfirst := matched_entryParts ht (matched_parts t ht) hhead
      exact (hfirst.append (matched_itemParts ts hts rest hrest)).imp fun ⟨⟨_, hpt⟩, hpts⟩ =>
        List.forall_mem_cons.mpr ⟨hpt, hpts⟩

theorem matched_namedParts (es : List (String × Tree)) (hes : ∀ e ∈ es, e.2.OfConditions)
    (ps : List Part) (h : namedParts es = .ok ps) : Matched ps (namedLeaves es)
      (∀ e ∈ es, ((opens? e.1).isSome = true → ¬e.2.Fragile) ∧ e.2.WellPlaced) := by
  cases es with
  | nil =>
    cases h
    exact ⟨Nat.le_refl _, fun _ => nofun⟩
  | cons e es =>
    obtain ⟨name, t⟩ := e
    obtain ⟨ht, hes⟩ := List.forall_mem_cons.mp hes
    rw [namedParts, connective?_eq_opens?] at h
    split at h
    · cases h
    next head hhead =>
      obtain ⟨rest, hrest, rfl⟩ := Outcome.map_eq_ok.mp h
      have hfirst := matched_entryParts ht (matched_parts t ht) hhead
      exact (hfirst.append (matched_namedParts es hes rest hrest)).imp fun hkept =>
        List.forall_mem_cons.mpr hkept

end

def groupOf : List Part → Option Composite
  | [] => none
  | ps => some ⟨.and, ps⟩

theorem compose_eq {t : Tree} (ht : t.OfConditions) : t.compose = (parts t).map groupOf := by
  unfold compose
  cases htruthy : t.truthy with
  | false =>
    rcases eq_nil_of_not_truthy ht htruthy with rfl | rfl
    · rfl
    · rfl
  | true =>
    cases hparts : parts t with
    | error e => rfl
    | ok ps =>
      cases ps with
      | nil => rfl
      | cons p ps => rfl

theorem holdsLeaves_groupOf_iff : HoldsLeaves (groupOf ps) ls ↔ Intact ps ls := by
  cases ps with
  | nil =>
    constructor
    · rintro (rfl : ls = [])
      exact .nil
    · exact fun h => h.2.mp rfl
  | cons p ps =>
    have hnil : (p :: ps = [] ↔ ls = []) ↔ ls ≠ [] := by simp
    rw [Intact, hnil, and_comm]
    rfl

/-- A tree of conditions keeps its leaves exactly when it is not a condition itself and none stands
    alone under the name of a connective, a single character apart. -/
theorem compose_keeps_leaves_iff {t : Tree} (ht : t.OfConditions) :
    t.KeepsLeaves ↔ ¬t.Fragile ∧ t.WellPlaced := by
  rw [KeepsLeaves, compose_eq ht]
  constructor
  · rintro ⟨c?, hc, hholds⟩
    obtain ⟨ps, hps, rfl⟩ := Outcome.map_eq_ok.mp hc
    have hintact := holdsLeaves_groupOf_iff.mp hholds
    exact (matched_parts t ht ps hps).2 hintact.1.sizeAll_eq
  · rintro ⟨hf, hplaced⟩
    obtain ⟨ps, hps, hintact⟩ := intact_parts t ht hf hplaced
    exact ⟨groupOf ps, by rw [hps]; rfl, holdsLeaves_groupOf_iff.mpr hintact⟩

def nestedTree : Tree := .map [
  ("0", .leaf (.str "t.a = 1")),
  ("OR1", .list [
    .fragment ⟨"t.b = :tb1", [(":tb1", .int 2)]⟩,
    .map [("AND22", .list [.leaf (.str "t.c = 3"), .list []]),
      ("x", .group ⟨.or, [.leaf (.str "t.d = 4"), .leaf (.str "t.e = 5")]⟩)]])]

theorem nested_tree_kept : nestedTree.OfConditions ∧ nestedTree.KeepsLeaves := by
  have hfirst : (leaf (.str "t.a = 1")).OfConditions := .condition ⟨_, rfl, by decide⟩
  have hthird : (leaf (.str "t.c = 3")).OfConditions := .condition ⟨_, rfl, by decide⟩
  have hconditions : nestedTree.OfConditions := by
    simp only [nestedTree, ofConditions_map_iff, ofConditions_list_iff, List.forall_mem_cons]
    exact ⟨hfirst, ⟨.condition (by simp [IsCondition]), ⟨⟨hthird, nofun, nofun⟩,
      .condition nofun, nofun⟩, nofun⟩, nofun⟩
  have hplaced : nestedTree.WellPlaced := by
    simp only [nestedTree, wellPlaced_map_iff, wellPlaced_list_iff, List.forall_mem_cons]
    exact ⟨⟨nofun, .single id⟩, ⟨fun _ => not_fragile_of_isGroup trivial, .single id,
      ⟨⟨fun _ => not_fragile_of_isGroup trivial, .single id, nofun, nofun⟩, ⟨nofun, .single id⟩,
        nofun⟩, nofun⟩, nofun⟩
  exact ⟨hconditions,
    (compose_keeps_leaves_iff hconditions).mpr ⟨not_fragile_of_isGroup trivial, hplaced⟩⟩

def loneText : Tree := .map [("AND", .leaf (.str "a = 1"))]

theorem lone_text_torn : loneText.OfConditions ∧
    loneText.compose = .ok (some ⟨.and, [.group .and
      (["a", " ", "=", " ", "1"].map fun s => .leaf (.str s))]⟩) ∧
    ¬loneText.KeepsLeaves ∧
    (map [("OR2", .fragment ⟨"a = 1", []⟩)]).compose = .error .wrongKind := by
  have hcondition : (leaf (.str "a = 1")).IsCondition := ⟨_, rfl, by decide⟩
  have hcompose : loneText.compose = .ok (some ⟨.and, [.group .and
      (["a", " ", "=", " ", "1"].map fun s => .leaf (.str s))]⟩) := by cbv
  refine ⟨.map (List.forall_mem_cons.mpr ⟨.condition hcondition, nofun⟩), hcompose, ?_, by cbv⟩
  rintro ⟨c?, hc, hholds⟩
  obtain rfl := Except.ok.inj (hcompose.symm.trans hc)
  -- one condition went in and five came out
  exact absurd hholds.2.sizeAll_eq (by decide)

end Tree

end FieldRules
