import FieldRules.Filter.Build
import FieldRules.Fault
import FieldRules.Proofs.Text.Pieces

namespace FieldRules.Filter

open Numeral

variable {α β : Type} {limit : DigitLimit} {texts texts' : List (List Char)} {x y : Except Fault α}
  {spec : RuleSpec}

theorem fits_of_sublist {cs ds : List Char} (hsub : cs.Sublist ds) (h : fits limit ds = true) :
    fits limit cs = true := by
  cases limit with
  | none => rfl
  | some n =>
    have hdigits := (hsub.filter Text.isDigit).length_le
    have hmost : (ds.filter Text.isDigit).length ≤ n := by simpa [fits] using h
    simpa [fits] using Nat.le_trans hdigits hmost

def Limited (limit : DigitLimit) (texts : List (List Char)) (x y : Except Fault α) : Prop :=
  x = y ∨ x = .error .tooManyDigits ∧ ∃ cs ∈ texts, fits limit cs = false

namespace Limited

theorem bind (h : Limited limit texts x y) (f : α → Except Fault β) :
    Limited limit texts (x.bind f) (y.bind f) := by
  rcases h with rfl | ⟨rfl, hlong⟩
  · exact .inl rfl
  · exact .inr ⟨rfl, hlong⟩

theorem map (h : Limited limit texts x y) (f : α → β) :
    Limited limit texts (x.map f) (y.map f) := by
  rcases h with rfl | ⟨rfl, hlong⟩
  · exact .inl rfl
  · exact .inr ⟨rfl, hlong⟩

theorem within (h : Limited limit texts x y)
    (hsub : ∀ cs ∈ texts, ∃ ds ∈ texts', cs.Sublist ds) : Limited limit texts' x y := by
  rcases h with hsame | ⟨hfault, cs, hcs, hlong⟩
  · exact .inl hsame
  · obtain ⟨ds, hds, hsublist⟩ := hsub cs hcs
    refine .inr ⟨hfault, ds, hds, ?_⟩
    cases hfits : fits limit ds with
    | false => rfl
    | true => exact absurd (fits_of_sublist hsublist hfits) (by simp [hlong])

end Limited

theorem boundText_limited (limit : DigitLimit) (spec : RuleSpec) (s : String) :
    Limited limit [s.toList] (boundText limit spec s) (boundText none spec s) := by
  unfold boundText
  split
  · exact .inl rfl
  · split
    · split
      · refine Limited.map ?_ Value.int
        cases hfits : fits limit s.toList with
        | true => exact .inl (by rw [readInt, if_pos hfits]; rfl)
        | false =>
          exact .inr ⟨by rw [readInt, hfits]; rfl, s.toList, List.mem_singleton_self _, hfits⟩
      · exact .inl rfl
    · exact .inl rfl
    · exact .inl rfl

theorem boundAll_limited (limit : DigitLimit) (spec : RuleSpec) (items : List String) :
    Limited limit (items.map String.toList) (boundAll limit spec items)
      (boundAll none spec items) := by
  induction items with
  | nil => exact .inl rfl
  | cons s items ih =>
    rw [boundAll, boundAll]
    rcases boundText_limited limit spec s with hsame | ⟨hfault, cs, hcs, hlong⟩
    · rw [hsame]
      cases boundText none spec s with
      | error e => exact .inl rfl
      | ok v =>
        exact (ih.map (v :: ·)).within fun cs hcs => ⟨cs, List.mem_cons_of_mem _ hcs, .refl cs⟩
    · rw [hfault]
      refine .inr ⟨rfl, cs, ?_, hlong⟩
      rw [List.mem_singleton.mp hcs]
      exact List.mem_cons_self

def Match.bounds : Match → List (List Char)
  | range low high => [low, high]
  | compare _ bound => [bound]
  | negation rest => [rest]
  | wildcard .. => []

inductive Found (spec : RuleSpec) (single : Bool) (cs : List Char) : Match → Prop
  | range {low high : List Char} : flag spec.rangeAllowed = true → cs = low ++ '|' :: high →
      Found spec single cs (.range low high)
  | compare {c : Comparator} {rest : List Char} : c.allowed spec = true →
      cs = c.text.toList ++ rest → Found spec single cs (.compare c rest)
  | negation {rest : List Char} : single = true → flag spec.negationAllowed = true →
      cs = '!' :: rest → Found spec single cs (.negation rest)
  | wildcard {ends : Bool × Bool} {front back : Bool} {text : List Char} :
      wildcardEnds spec.wildcard = .ok ends →
      Match.wildcard? ends cs = some (.wildcard front back text) →
        Found spec single cs (.wildcard front back text)

theorem Match.comparison?_eq_some {cs : List Char} {m : Match}
    (h : Match.comparison? spec cs = some m) :
    ∃ (c : Comparator) (rest : List Char), m = .compare c rest ∧ c.allowed spec = true ∧
      cs = c.text.toList ++ rest := by
  have hfound : ∀ (c : Comparator) (rest : List Char),
      (if c.allowed spec then some (Match.compare c rest) else none) = some m →
        m = .compare c rest ∧ c.allowed spec = true := by
    intro c rest hm
    split at hm
    next hallowed => exact ⟨(Option.some.inj hm).symm, hallowed⟩
    next => cases hm
  unfold Match.comparison? at h
  dsimp only at h
  split at h
  next rest => exact ⟨.atMost, rest, (hfound _ _ h).1, (hfound _ _ h).2, rfl⟩
  next rest => exact ⟨.atLeast, rest, (hfound _ _ h).1, (hfound _ _ h).2, rfl⟩
  next rest _ => exact ⟨.below, rest, (hfound _ _ h).1, (hfound _ _ h).2, rfl⟩
  next rest _ => exact ⟨.above, rest, (hfound _ _ h).1, (hfound _ _ h).2, rfl⟩
  next => cases h

theorem found_of_find? {single : Bool} {cs : List Char} {m : Match}
    (h : Match.find? spec single cs = .ok (some m)) : Found spec single cs m := by
  unfold Match.find? at h
  split at h
  next low high hcut =>
    obtain rfl := Option.some.inj (Except.ok.inj h)
    split at hcut
    next hrange =>
      rcases Text.divided_or_not_mem '|' cs with hnone | ⟨low', high', hlow, rfl⟩
      · rw [Text.cutAt_of_not_mem hnone] at hcut
        cases hcut
      · rw [Text.cutAt_append_cons hlow] at hcut
        cases hcut
        exact .range hrange rfl
    next => cases hcut
  next =>
    split at h
    next found hfound =>
      obtain rfl := Option.some.inj (Except.ok.inj h)
      obtain ⟨c, rest, rfl, hallowed, hcs⟩ := Match.comparison?_eq_some hfound
      exact .compare hallowed hcs
    next =>
      split at h
      next hmark =>
        obtain rfl := Option.some.inj (Except.ok.inj h)
        simp only [Bool.and_eq_true, beq_iff_eq] at hmark
        obtain ⟨⟨hsingle, hallowed⟩, hhead⟩ := hmark
        obtain ⟨rest, rfl⟩ := List.head?_eq_some_iff.mp hhead
        exact .negation hsingle hallowed rfl
      next =>
        split at h
        · cases h
        · obtain ⟨ends, hends, hm⟩ := Outcome.map_eq_ok.mp h
          have hwild := hm
          unfold Match.wildcard? at hwild
          dsimp only at hwild
          split at hwild
          · obtain rfl := Option.some.inj hwild
            exact .wildcard hends hm
          · cases hwild

theorem Match.sublist_of_mem_bounds {single : Bool} {cs : List Char} {m : Match}
    (h : Match.find? spec single cs = .ok (some m)) {b : List Char} (hb : b ∈ m.bounds) :
    b.Sublist cs := by
  cases found_of_find? h with
  | @range low high _ hcs =>
    rw [hcs]
    rcases List.mem_cons.mp hb with rfl | hb
    · exact List.sublist_append_left b _
    · obtain rfl := List.mem_singleton.mp hb
      exact (List.sublist_cons_self '|' b).trans (List.sublist_append_right low _)
  | compare _ hcs =>
    rw [hcs, List.mem_singleton.mp hb]
    exact List.sublist_append_right _ _
  | negation _ _ hcs =>
    rw [hcs, List.mem_singleton.mp hb]
    exact List.sublist_cons_self '!' _
  | wildcard => cases hb

theorem Match.test_limited (limit : DigitLimit) (spec : RuleSpec) (m : Match) :
    Limited limit m.bounds (m.test limit spec) (m.test none spec) := by
  have hone (cs : List Char) : Limited limit [cs] (boundText limit spec (String.ofList cs))
      (boundText none spec (String.ofList cs)) := by
    simpa using boundText_limited limit spec (String.ofList cs)
  cases m with
  | range low high =>
    simp only [Match.test]
    rcases hone low with hlow | ⟨hfault, cs, hcs, hlong⟩
    · rw [hlow]
      cases boundText none spec (String.ofList low) with
      | error e => exact .inl rfl
      | ok l =>
        rcases hone high with hhigh | ⟨hfault, cs, hcs, hlong⟩
        · exact .inl (by rw [hhigh])
        · exact .inr ⟨by rw [hfault], cs, List.mem_cons_of_mem low hcs, hlong⟩
    · refine .inr ⟨by rw [hfault], cs, ?_, hlong⟩
      exact List.mem_cons.mpr (.inl (List.mem_singleton.mp hcs))
  | compare c bound => exact (hone bound).map (Test.compare c)
  | negation rest => exact (hone rest).map (Test.equal true)
  | wildcard front back text => exact .inl rfl

theorem equality_limited (limit : DigitLimit) (spec : RuleSpec) (item : String) :
    Limited limit [item.toList] (equality limit spec false [item])
      (equality none spec false [item]) := by
  have hbare : ∃ negated bare, negatedItems spec [item] = (negated, [bare]) ∧
      bare.toList.Sublist item.toList := by
    rw [negatedItems]
    split
    next cs _ hcs => exact ⟨true, String.ofList cs, rfl, by simp [hcs]⟩
    next => exact ⟨false, item, rfl, .refl _⟩
  obtain ⟨negated, bare, hitems, hsub⟩ := hbare
  rw [equality, equality, hitems]
  refine ((boundText_limited limit spec bare).map (Test.equal negated)).within fun cs hcs => ?_
  rw [List.mem_singleton.mp hcs]
  exact ⟨item.toList, List.mem_singleton_self _, hsub⟩

theorem templateOperation_limited (limit : DigitLimit) (spec : RuleSpec) (template column : String)
    (items : List String) (names : ParamNames) :
    Limited limit (items.map String.toList)
        (templateOperation limit spec template column items names).1
        (templateOperation none spec template column items names).1 ∧
      (templateOperation limit spec template column items names).2 =
        (templateOperation none spec template column items names).2 := by
  unfold templateOperation
  split
  next item =>
    split
    next => exact ⟨.inl rfl, rfl⟩
    next => exact ⟨(equality_limited limit spec item).bind _, rfl⟩
    next m hm =>
      refine ⟨((m.test_limited limit spec).bind _).within fun cs hcs => ?_, rfl⟩
      exact ⟨item.toList, List.mem_singleton_self _, Match.sublist_of_mem_bounds hm hcs⟩
  next => exact ⟨((boundAll_limited limit spec _).map (Test.among false)).bind _, rfl⟩

theorem templateFragments_limited (limit : DigitLimit) (spec : RuleSpec)
    (template column : String) (items : List String) (names : ParamNames) :
    Limited limit (items.map String.toList)
        (templateFragments limit spec template column items names).1
        (templateFragments none spec template column items names).1 ∧
      (templateFragments limit spec template column items names).2 =
        (templateFragments none spec template column items names).2 := by
  unfold templateFragments
  split
  · obtain ⟨hlimited, hrest⟩ := templateOperation_limited limit spec template column items names
    exact ⟨hlimited.map ([·]), hrest⟩
  · split
    · exact ⟨((boundAll_limited limit spec items).map _).map ([·]), rfl⟩
    · exact ⟨.inl rfl, rfl⟩

end FieldRules.Filter
