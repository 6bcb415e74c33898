import FieldRules.Filter.Build
import FieldRules.Proofs.Numeral.Canonical
import FieldRules.Fault

namespace FieldRules

namespace ParamNames

theorem name_injective (n : ParamNames) {i j : Nat} (h : n.name i = n.name j) : i = j := by
  have hl := congrArg String.toList h
  simp only [name, String.toList_append] at hl
  have hd := List.append_cancel_left hl
  have hn : n.counter + i = n.counter + j := by
    apply Numeral.toDigits_injective
    simpa using hd
  omega

theorem nodup_take (n : ParamNames) (k : Nat) : (n.take k).Nodup := by
  rw [take, List.nodup_iff_pairwise_ne, List.pairwise_map]
  exact List.nodup_range.imp fun hij he => hij (n.name_injective he)

theorem take_add (n : ParamNames) (j k : Nat) :
    n.take (j + k) = n.take j ++ (n.advance j).take k := by
  simp [take, advance, name, List.range_add, Function.comp_def, Nat.add_assoc]

theorem advance_advance (n : ParamNames) (j k : Nat) :
    (n.advance j).advance k = n.advance (j + k) := by
  simp [advance, Nat.add_assoc]

theorem mem_take {n : ParamNames} {k : Nat} {p : String} :
    p ∈ n.take k ↔ ∃ i, i < k ∧ n.name i = p := by
  simp [take]

end ParamNames

namespace Fragment

def names (f : Fragment) : List String := Table.names f.params

end Fragment

namespace Filter

def placeholders (fragments : List Fragment) : List String := fragments.flatMap Fragment.names

@[simp] theorem placeholders_nil : placeholders [] = [] := rfl

@[simp] theorem placeholders_cons (f : Fragment) (fs : List Fragment) :
    placeholders (f :: fs) = f.names ++ placeholders fs := rfl

@[simp] theorem placeholders_append (fs gs : List Fragment) :
    placeholders (fs ++ gs) = placeholders fs ++ placeholders gs := List.flatMap_append

def Draws (before after : ParamNames) (fragments : List Fragment) : Prop :=
  ∃ k, after = before.advance k ∧ placeholders fragments = before.take k

theorem Draws.nil (names : ParamNames) : Draws names names [] := ⟨0, rfl, rfl⟩

theorem Draws.append {n₁ n₂ n₃ : ParamNames} {fs gs : List Fragment} (h : Draws n₁ n₂ fs)
    (h' : Draws n₂ n₃ gs) : Draws n₁ n₃ (fs ++ gs) := by
  obtain ⟨j, rfl, hf⟩ := h
  obtain ⟨k, rfl, hg⟩ := h'
  refine ⟨j + k, ParamNames.advance_advance n₁ j k, ?_⟩
  rw [placeholders_append, hf, hg, ParamNames.take_add]

def Test.draws : Test → Nat
  | .between .. => 2
  | _ => 1

theorem Test.names_params (t : Test) (n : ParamNames) :
    Table.names (t.params (n.name 0) (n.name 1)) = n.take t.draws := by
  cases t <;> rfl

theorem Test.params_of_fragment {spec : RuleSpec} {column p q : String} {t : Test} {f : Fragment}
    (h : t.fragment spec column p q = .ok f) : f.params = t.params p q := by
  obtain ⟨op, -, hf⟩ := Outcome.map_eq_ok.mp h
  cases op <;> exact hf ▸ rfl

theorem Test.params_of_inTemplate {spec : RuleSpec} {template column p q : String} {t : Test}
    {f : Fragment} (h : t.inTemplate spec template column p q = .ok f) :
    f.params = t.params p q := by
  obtain ⟨op, -, hf⟩ := Outcome.map_eq_ok.mp h
  cases op <;> exact hf ▸ rfl

variable {limit : Numeral.DigitLimit} {spec : RuleSpec}

theorem Match.draws_test {m : Match} {t : Test} (h : m.test limit spec = .ok t) :
    t.draws = m.draws := by
  cases m with
  | range low high =>
    simp only [Match.test] at h
    split at h
    · cases h; rfl
    · cases h
    · cases h
  | compare c cs =>
    obtain ⟨v, -, rfl⟩ := Outcome.map_eq_ok.mp h
    rfl
  | negation cs =>
    obtain ⟨v, -, rfl⟩ := Outcome.map_eq_ok.mp h
    rfl
  | wildcard front back text =>
    cases h
    rfl

theorem draws_equality {asList : Bool} {items : List String} {t : Test}
    (h : equality limit spec asList items = .ok t) : t.draws = 1 := by
  unfold equality at h
  split at h
  split at h <;> obtain ⟨v, -, rfl⟩ := Outcome.map_eq_ok.mp h <;> rfl

theorem draws_of_test {test : Except Fault Test}
    (make : Test → String → String → Except Fault Fragment)
    (hmake : ∀ t p q f, make t p q = .ok f → f.params = t.params p q) {n n' : ParamNames} {k : Nat}
    {f : Fragment} (hk : ∀ t, test = .ok t → t.draws = k)
    (h : drawn n k (fun p q => test.bind fun t => make t p q) = (.ok f, n')) : Draws n n' [f] := by
  obtain ⟨hf, rfl⟩ := Prod.mk.inj h
  obtain ⟨t, ht, hf⟩ := Outcome.bind_eq_ok.mp hf
  refine ⟨k, rfl, ?_⟩
  rw [← hk t ht, ← t.names_params n, ← hmake _ _ _ _ hf]
  exact List.append_nil _

theorem draws_testFragment {column : String} {n n' : ParamNames} {k : Nat}
    {test : Except Fault Test} {f : Fragment} (hk : ∀ t, test = .ok t → t.draws = k)
    (h : testFragment spec column n k test = (.ok f, n')) : Draws n n' [f] :=
  draws_of_test (fun t p q => t.fragment spec column p q)
    (fun _ _ _ _ => Test.params_of_fragment) hk h

theorem draws_equalityFragment {column : String} {asList : Bool} {items : List String}
    {n n' : ParamNames} {f : Fragment}
    (h : equalityFragment limit spec column asList items n = (.ok f, n')) : Draws n n' [f] :=
  draws_testFragment (fun _ => draws_equality) h

theorem operatorFragments_cons {column item : String} {single : Bool} {rest bucket : List String}
    {n n' : ParamNames} {fs : List Fragment}
    (h : operatorFragments limit spec column single (item :: rest) n = (.ok (fs, bucket), n')) :
    (∃ left, bucket = item :: left ∧
        operatorFragments limit spec column single rest n = (.ok (fs, left), n')) ∨
      ∃ m f gs n₁, Match.find? spec single item.toList = .ok (some m) ∧
        testFragment spec column n m.draws (m.test limit spec) = (.ok f, n₁) ∧ fs = f :: gs ∧
        operatorFragments limit spec column single rest n₁ = (.ok (gs, bucket), n') := by
  simp only [operatorFragments] at h
  split at h
  · cases h
  · obtain ⟨hr, hn⟩ := Prod.mk.inj h
    obtain ⟨⟨gs, left⟩, hg, he⟩ := Outcome.map_eq_ok.mp hr
    cases he
    exact .inl ⟨left, rfl, Prod.ext hg hn⟩
  next m hm =>
    split at h
    · cases h
    next f n₁ hf =>
      obtain ⟨hr, hn⟩ := Prod.mk.inj h
      obtain ⟨⟨gs, left⟩, hg, he⟩ := Outcome.map_eq_ok.mp hr
      cases he
      exact .inr ⟨m, f, gs, n₁, hm, hf, rfl, Prod.ext hg hn⟩

theorem itemFragments_eq_ok {column : String} {items : List String} {n n' : ParamNames}
    {fs : List Fragment} (h : itemFragments limit spec column items n = (.ok fs, n')) :
    ∃ gs bucket n₁, operatorFragments limit spec column (items.length == 1) items n =
        (.ok (gs, bucket), n₁) ∧
      (bucket = [] ∧ fs = gs ∧ n' = n₁ ∨ bucket ≠ [] ∧ ∃ f, fs = gs ++ [f] ∧
        equalityFragment limit spec column false bucket n₁ = (.ok f, n')) := by
  unfold itemFragments at h
  split at h
  · cases h
  next hops =>
    cases h
    exact ⟨fs, [], n', hops, .inl ⟨rfl, rfl, rfl⟩⟩
  next gs bucket n₁ hne hops =>
    obtain ⟨hr, hn⟩ := Prod.mk.inj h
    obtain ⟨f, hf, rfl⟩ := Outcome.map_eq_ok.mp hr
    exact ⟨gs, bucket, n₁, hops, .inr ⟨hne, f, rfl, Prod.ext hf hn⟩⟩

theorem draws_operatorFragments {column : String} {single : Bool} {items bucket : List String}
    {n n' : ParamNames} {fs : List Fragment}
    (h : operatorFragments limit spec column single items n = (.ok (fs, bucket), n')) :
    Draws n n' fs := by
  induction items generalizing n fs bucket with
  | nil =>
    cases h
    exact Draws.nil _
  | cons item rest ih =>
    rcases operatorFragments_cons h with ⟨left, -, hrest⟩ | ⟨m, f, gs, n₁, -, hf, rfl, hrest⟩
    · exact ih hrest
    · have hhead : Draws n n₁ [f] := draws_testFragment (fun _ => Match.draws_test) hf
      exact hhead.append (ih hrest)

theorem draws_alone {built : Except Fault Fragment × ParamNames} {n n' : ParamNames}
    {fs : List Fragment} (hone : ∀ f, built = (.ok f, n') → Draws n n' [f])
    (h : alone built = (.ok fs, n')) : Draws n n' fs := by
  obtain ⟨hr, hn⟩ := Prod.mk.inj h
  obtain ⟨f, hf, rfl⟩ := Outcome.map_eq_ok.mp hr
  exact hone f (Prod.ext hf hn)

theorem draws_itemFragments {column : String} {items : List String} {n n' : ParamNames}
    {fs : List Fragment} (h : itemFragments limit spec column items n = (.ok fs, n')) :
    Draws n n' fs := by
  obtain ⟨gs, bucket, n₁, hops, ⟨-, rfl, rfl⟩ | ⟨-, f, rfl, hf⟩⟩ := itemFragments_eq_ok h
  · exact draws_operatorFragments hops
  · exact (draws_operatorFragments hops).append (draws_equalityFragment hf)

theorem draws_templateValue {template : String} {items : List String} {n n' : ParamNames}
    {f : Fragment}
    (h : drawn n 1 (fun p _ => templateValue limit spec template p items) = (.ok f, n')) :
    Draws n n' [f] := by
  obtain ⟨hf, rfl⟩ := Prod.mk.inj h
  obtain ⟨vs, -, rfl⟩ := Outcome.map_eq_ok.mp hf
  refine ⟨1, rfl, ?_⟩
  split <;> rfl

theorem draws_templateOperation {template column : String} {items : List String}
    {n n' : ParamNames} {f : Fragment}
    (h : templateOperation limit spec template column items n = (.ok f, n')) :
    Draws n n' [f] := by
  have hmake : ∀ t p q f, Test.inTemplate spec template column p q t = .ok f →
      f.params = t.params p q := fun _ _ _ _ => Test.params_of_inTemplate
  unfold templateOperation at h
  split at h
  · split at h
    · cases h
    · exact draws_of_test _ hmake (fun _ => draws_equality) h
    · exact draws_of_test _ hmake (fun _ => Match.draws_test) h
  · refine draws_of_test _ hmake ?_ h
    intro t ht
    obtain ⟨vs, -, rfl⟩ := Outcome.map_eq_ok.mp ht
    rfl

theorem draws_templateFragments {template column : String} {items : List String}
    {n n' : ParamNames} {fs : List Fragment}
    (h : templateFragments limit spec template column items n = (.ok fs, n')) :
    Draws n n' fs := by
  unfold templateFragments at h
  split at h
  · exact draws_alone (fun _ => draws_templateOperation) h
  · split at h
    · exact draws_alone (fun _ => draws_templateValue) h
    · cases h
      exact ⟨0, rfl, rfl⟩

theorem draws_build {r : Rule} (hr : r.callback = none) {column : String} {v : Value}
    {n n' : ParamNames} {fs : List Fragment} (h : build limit r column v n = (.ok fs, n')) :
    Draws n n' fs := by
  unfold build at h
  split at h
  · cases h
    exact ⟨0, rfl, rfl⟩
  · split at h
    · cases h
    · cases h
      exact Draws.nil _
    · simp only [ruleFragments, hr] at h
      split at h
      · contradiction
      · exact draws_templateFragments h
      · split at h
        · exact draws_alone (fun _ => draws_equalityFragment) h
        · exact draws_itemFragments h

end Filter

end FieldRules
