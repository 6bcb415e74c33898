import FieldRules.Filter.Build
import FieldRules.Proofs.Placeholder.Series
import FieldRules.Proofs.Text.Pieces
import Mathlib.Data.List.Count

namespace FieldRules.Filter

def Comparator.Holds (x a : Int) : Comparator → Prop
  | .atMost => x ≤ a
  | .atLeast => a ≤ x
  | .below => x < a
  | .above => a < x

inductive Predicate where
  | between (p q : String)
  | enclosed (p q : String)
  | compare (c : Comparator) (p : String)
  | equal (negated : Bool) (p : String)
  | among (negated : Bool) (p : String)
  deriving DecidableEq, Repr

namespace Predicate

def text (column : String) : Predicate → String
  | between p q => column ++ " BETWEEN " ++ p ++ " AND " ++ q
  | enclosed p q => p ++ " <= " ++ column ++ " AND " ++ q ++ " >= " ++ column
  | compare .atMost p => column ++ " <= " ++ p
  | compare .atLeast p => column ++ " >= " ++ p
  | compare .below p => column ++ " < " ++ p
  | compare .above p => column ++ " > " ++ p
  | equal false p => column ++ " = " ++ p
  | equal true p => column ++ " <> " ++ p
  | among false p => column ++ " IN (" ++ p ++ ")"
  | among true p => column ++ " NOT IN (" ++ p ++ ")"

def placeholders : Predicate → List String
  | between p q => [p, q]
  | enclosed p q => [p, q]
  | compare _ p => [p]
  | equal _ p => [p]
  | among _ p => [p]

def Named (t : Predicate) : Prop := ∀ p ∈ t.placeholders, ' ' ∉ p.toList

def Holds (params : Table Value) (x : Int) : Predicate → Prop
  | between p q => ∃ a b, params.get? p = some (.int a) ∧ params.get? q = some (.int b) ∧
      a ≤ x ∧ x ≤ b
  | enclosed p q => ∃ a b, params.get? p = some (.int a) ∧ params.get? q = some (.int b) ∧
      a ≤ x ∧ b ≥ x
  | compare c p => ∃ a, params.get? p = some (.int a) ∧ c.Holds x a
  | equal negated p => ∃ a, params.get? p = some (.int a) ∧ (x = a ↔ negated = false)
  | among negated p => ∃ vs, params.get? p = some (.list vs) ∧ (.int x ∈ vs ↔ negated = false)

def IsEnclosed : Predicate → Prop
  | enclosed .. => True
  | _ => False

theorem count_text_of_not_enclosed {t : Predicate} (ht : t.Named) (he : ¬t.IsEnclosed)
    (column : String) :
    (t.text column).toList.count ' ' ≤ column.toList.count ' ' + 4 := by
  cases t with
  | between p q =>
    have hp : p.toList.count ' ' = 0 := List.count_eq_zero.mpr (ht p (by simp [placeholders]))
    have hq : q.toList.count ' ' = 0 := List.count_eq_zero.mpr (ht q (by simp [placeholders]))
    simp [text, hp, hq]
  | enclosed p q => exact absurd trivial he
  | compare c p =>
    have hp : p.toList.count ' ' = 0 := List.count_eq_zero.mpr (ht p (by simp [placeholders]))
    cases c <;> simp [text, hp]
  | equal negated p =>
    have hp : p.toList.count ' ' = 0 := List.count_eq_zero.mpr (ht p (by simp [placeholders]))
    cases negated <;> simp [text, hp]
  | among negated p =>
    have hp : p.toList.count ' ' = 0 := List.count_eq_zero.mpr (ht p (by simp [placeholders]))
    cases negated <;> simp [text, hp]

theorem count_text_enclosed (column p q : String) :
    2 * column.toList.count ' ' + 6 ≤ ((enclosed p q).text column).toList.count ' ' := by
  simp [text]
  omega

def keyword : Predicate → String
  | between .. => "BETWEEN"
  | enclosed .. => ""
  | compare c _ => c.text
  | equal negated _ => if negated then "<>" else "="
  | among negated _ => if negated then "NOT" else "IN"

def operands : Predicate → String
  | between p q => p ++ " AND " ++ q
  | enclosed .. => ""
  | compare _ p => p
  | equal _ p => p
  | among negated p => (if negated then "IN (" else "(") ++ p ++ ")"

theorem toList_text {t : Predicate} (he : ¬t.IsEnclosed) (column : String) :
    (t.text column).toList =
      column.toList ++ ' ' :: (t.keyword.toList ++ ' ' :: t.operands.toList) := by
  cases t with
  | between p q => simp [text, keyword, operands]
  | enclosed p q => exact absurd trivial he
  | compare c p => cases c <;> simp [text, keyword, operands, Comparator.text]
  | equal negated p => cases negated <;> simp [text, keyword, operands]
  | among negated p => cases negated <;> simp [text, keyword, operands]

theorem text_between (column p q : String) :
    (column ++ " " ++ ("BETWEEN " ++ p ++ " AND " ++ q)).toList =
      ((between p q).text column).toList := by
  simp [text]

theorem text_compare (c : Comparator) (column p : String) :
    (column ++ " " ++ (c.text ++ " " ++ p)).toList = ((compare c p).text column).toList := by
  cases c <;> simp [text, Comparator.text]

theorem text_equal (negated : Bool) (column p : String) :
    (column ++ " " ++ ((if negated then "<>" else "=") ++ " " ++ p)).toList =
      ((equal negated p).text column).toList := by
  cases negated <;> simp [text]

theorem text_among (negated : Bool) (column p : String) :
    (column ++ " " ++ ((if negated then "NOT IN" else "IN") ++ " (" ++ p ++ ")")).toList =
      ((among negated p).text column).toList := by
  cases negated <;> simp [text]

theorem blank_not_mem_keyword (t : Predicate) : ' ' ∉ t.keyword.toList := by
  cases t with
  | between p q => simp [keyword]
  | enclosed p q => simp [keyword]
  | compare c p => cases c <;> simp [keyword, Comparator.text]
  | equal negated p => cases negated <;> simp [keyword]
  | among negated p => cases negated <;> simp [keyword]

theorem and_injective {p q p' q' : String} (hp : ' ' ∉ p.toList) (hp' : ' ' ∉ p'.toList)
    (h : p ++ " AND " ++ q = p' ++ " AND " ++ q') : p = p' ∧ q = q' := by
  have hl := congrArg String.toList h
  simp only [String.toList_append, List.append_assoc] at hl
  obtain ⟨hpp, hr⟩ := Text.cut_unique hp hp' hl
  exact ⟨String.toList_inj.mp hpp, String.toList_inj.mp (by simpa using hr)⟩

theorem eq_of_words {t u : Predicate} (ht : t.Named) (hu : u.Named) (het : ¬t.IsEnclosed)
    (heu : ¬u.IsEnclosed) (hk : t.keyword = u.keyword) (ho : t.operands = u.operands) : t = u := by
  cases t with
  | between p q =>
    cases u with
    | between p' q' =>
      obtain ⟨rfl, rfl⟩ := and_injective (ht p (by simp [placeholders]))
        (hu p' (by simp [placeholders])) ho
      rfl
    | enclosed p' q' => exact absurd trivial heu
    | compare c p' => cases c <;> simp [keyword, Comparator.text] at hk
    | equal negated p' => cases negated <;> simp [keyword] at hk
    | among negated p' => cases negated <;> simp [keyword] at hk
  | enclosed p q => exact absurd trivial het
  | compare c p =>
    cases u with
    | between p' q' => cases c <;> simp [keyword, Comparator.text] at hk
    | enclosed p' q' => exact absurd trivial heu
    | compare c' p' =>
      cases c <;> cases c' <;> simp_all [keyword, operands, Comparator.text]
    | equal negated p' => cases c <;> cases negated <;> simp [keyword, Comparator.text] at hk
    | among negated p' => cases c <;> cases negated <;> simp [keyword, Comparator.text] at hk
  | equal negated p =>
    cases u with
    | between p' q' => cases negated <;> simp [keyword] at hk
    | enclosed p' q' => exact absurd trivial heu
    | compare c p' => cases c <;> cases negated <;> simp [keyword, Comparator.text] at hk
    | equal negated' p' => cases negated <;> cases negated' <;> simp_all [keyword, operands]
    | among negated' p' => cases negated <;> cases negated' <;> simp [keyword] at hk
  | among negated p =>
    cases u with
    | between p' q' => cases negated <;> simp [keyword] at hk
    | enclosed p' q' => exact absurd trivial heu
    | compare c p' => cases c <;> cases negated <;> simp [keyword, Comparator.text] at hk
    | equal negated' p' => cases negated <;> cases negated' <;> simp [keyword] at hk
    | among negated' p' =>
      have hlist := congrArg String.toList ho
      cases negated <;> cases negated' <;> simp_all [keyword, operands]

theorem enclosed_injective {p q p' q' column : String} (hp : ' ' ∉ p.toList)
    (hp' : ' ' ∉ p'.toList) (hq : ' ' ∉ q.toList) (hq' : ' ' ∉ q'.toList)
    (h : (enclosed p q).text column = (enclosed p' q').text column) : p = p' ∧ q = q' := by
  have hl := congrArg String.toList h
  simp only [text, String.toList_append, List.append_assoc] at hl
  obtain ⟨hpp, hr⟩ := Text.cut_unique hp hp' hl
  have hr' : q.toList ++ ' ' :: ('>' :: '=' :: ' ' :: column.toList) =
      q'.toList ++ ' ' :: ('>' :: '=' :: ' ' :: column.toList) := by simpa using hr
  obtain ⟨hqq, -⟩ := Text.cut_unique hq hq' hr'
  exact ⟨String.toList_inj.mp hpp, String.toList_inj.mp hqq⟩

theorem text_injective {t u : Predicate} (ht : t.Named) (hu : u.Named) {column : String}
    (h : t.text column = u.text column) : t = u := by
  have hcount : (t.text column).toList.count ' ' = (u.text column).toList.count ' ' := by rw [h]
  by_cases het : t.IsEnclosed
  · cases t with
    | enclosed p q =>
      have hlow := count_text_enclosed column p q
      by_cases heu : u.IsEnclosed
      · cases u with
        | enclosed p' q' =>
          obtain ⟨rfl, rfl⟩ := enclosed_injective (ht p (by simp [placeholders]))
            (hu p' (by simp [placeholders])) (ht q (by simp [placeholders]))
            (hu q' (by simp [placeholders])) h
          rfl
        | _ => exact heu.elim
      · have hhigh := count_text_of_not_enclosed hu heu column
        omega
    | _ => exact het.elim
  · by_cases heu : u.IsEnclosed
    · cases u with
      | enclosed p' q' =>
        have hlow := count_text_enclosed column p' q'
        have hhigh := count_text_of_not_enclosed ht het column
        omega
      | _ => exact heu.elim
    · have hl := congrArg String.toList h
      rw [toList_text het, toList_text heu] at hl
      obtain ⟨-, hl⟩ := List.cons.inj (List.append_cancel_left hl)
      obtain ⟨hk, ho⟩ := Text.cut_unique (blank_not_mem_keyword t) (blank_not_mem_keyword u) hl
      exact eq_of_words ht hu het heu (String.toList_inj.mp hk) (String.toList_inj.mp ho)

end Predicate

namespace Predicate

variable {params : Table Value} {p q : String} {x a b : Int}

theorem holds_between (hp : params.get? p = some (.int a)) (hq : params.get? q = some (.int b)) :
    (between p q).Holds params x ↔ a ≤ x ∧ x ≤ b := by
  constructor
  · rintro ⟨a', b', ha, hb, hx⟩
    cases hp.symm.trans ha
    cases hq.symm.trans hb
    exact hx
  · intro hx
    exact ⟨a, b, hp, hq, hx⟩

theorem holds_enclosed (hp : params.get? p = some (.int a)) (hq : params.get? q = some (.int b)) :
    (enclosed p q).Holds params x ↔ a ≤ x ∧ x ≤ b := holds_between hp hq

theorem holds_compare {c : Comparator} (hp : params.get? p = some (.int a)) :
    (compare c p).Holds params x ↔ c.Holds x a := by
  constructor
  · rintro ⟨a', ha, hx⟩
    cases hp.symm.trans ha
    exact hx
  · intro hx
    exact ⟨a, hp, hx⟩

theorem holds_equal {negated : Bool} (hp : params.get? p = some (.int a)) :
    (equal negated p).Holds params x ↔ (x = a ↔ negated = false) := by
  constructor
  · rintro ⟨a', ha, hx⟩
    cases hp.symm.trans ha
    exact hx
  · intro hx
    exact ⟨a, hp, hx⟩

theorem holds_among {negated : Bool} {vs : List Value} (hp : params.get? p = some (.list vs)) :
    (among negated p).Holds params x ↔ (.int x ∈ vs ↔ negated = false) := by
  constructor
  · rintro ⟨vs', hvs, hx⟩
    cases hp.symm.trans hvs
    exact hx
  · intro hx
    exact ⟨vs, hp, hx⟩

end Predicate

def HoldsIn (column : String) (x : Int) (f : Fragment) : Prop :=
  ∃ t : Predicate, t.Named ∧ t.text column = f.expression ∧ t.Holds f.params x

theorem holdsIn_iff {t : Predicate} (ht : t.Named) {column : String} {f : Fragment}
    (hf : f.expression = t.text column) (x : Int) : HoldsIn column x f ↔ t.Holds f.params x := by
  constructor
  · rintro ⟨u, hu, hu', hx⟩
    rwa [Predicate.text_injective ht hu (hf.symm.trans hu'.symm)]
  · intro hx
    exact ⟨t, ht, hf.symm, hx⟩

namespace Test

def Meets (x : Int) : Test → Prop
  | between (.int a) (.int b) => a ≤ x ∧ x ≤ b
  | compare c (.int a) => c.Holds x a
  | equal negated (.int a) => x = a ↔ negated = false
  | among negated vs => .int x ∈ vs ↔ negated = false
  | _ => False

inductive Integral : Test → Prop
  | between (a b : Int) : Integral (.between (.int a) (.int b))
  | compare (c : Comparator) (a : Int) : Integral (.compare c (.int a))
  | equal (negated : Bool) (a : Int) : Integral (.equal negated (.int a))
  | among (negated : Bool) (ns : List Int) : Integral (.among negated (ns.map .int))

end Test

def BoundIntegers (v : Value) : Prop :=
  (∃ n, v = .int n) ∨ ∃ ns : List Int, v = .list (ns.map .int)

theorem Test.Integral.bound {t : Test} (ht : t.Integral) (p q : String) :
    ∀ e ∈ t.params p q, BoundIntegers e.2 := by
  intro e he
  cases ht with
  | between a b =>
    rcases List.mem_cons.mp he with rfl | he
    · exact .inl ⟨a, rfl⟩
    · exact .inl ⟨b, congrArg Prod.snd (List.mem_singleton.mp he)⟩
  | compare c a => exact .inl ⟨a, congrArg Prod.snd (List.mem_singleton.mp he)⟩
  | equal negated a => exact .inl ⟨a, congrArg Prod.snd (List.mem_singleton.mp he)⟩
  | among negated ns => exact .inr ⟨ns, congrArg Prod.snd (List.mem_singleton.mp he)⟩

section Fragments

variable {spec : RuleSpec} {column p q : String}

def PlainRange (spec : RuleSpec) : Prop :=
  spec.avoidBetween = none ∨ ∃ b, spec.avoidBetween = some (.bool b)

theorem filter_avoidBetween (hav : PlainRange spec) :
    spec.avoidBetween.filter Value.truthy = none ∨
      spec.avoidBetween.filter Value.truthy = some (.bool true) := by
  rcases hav with hav | ⟨b, hav⟩
  · exact .inl (by rw [hav]; rfl)
  · cases b with
    | false => exact .inl (by rw [hav]; rfl)
    | true => exact .inr (by rw [hav]; rfl)

theorem exists_fragment_of_text {t : Test} {f : Fragment} (u : Predicate)
    (hf : t.fragment spec column p q = .ok f) (hu : u.Named)
    (htext : f.expression.toList = (u.text column).toList)
    (hmeets : ∀ x, u.Holds (t.params p q) x ↔ t.Meets x) :
    ∃ f, t.fragment spec column p q = .ok f ∧ f.params = t.params p q ∧
      ∀ x, HoldsIn column x f ↔ t.Meets x := by
  have hparams : f.params = t.params p q := Test.params_of_fragment hf
  refine ⟨f, hf, hparams, fun x => ?_⟩
  rw [holdsIn_iff hu (String.toList_inj.mp htext), hparams, hmeets]

theorem operation_of_none (h : spec.avoidBetween.filter Value.truthy = none) (t : Test) :
    t.operation spec column p q = .ok (.rightSide (t.rightSide p q)) := by
  unfold Test.operation
  rw [h]
  cases t <;> rfl

theorem operation_between (h : spec.avoidBetween.filter Value.truthy = some (.bool true))
    (low high : Value) :
    (Test.between low high).operation spec column p q =
      .ok (.whole ((Predicate.enclosed p q).text column)) := by
  unfold Test.operation
  rw [h]
  rfl

theorem fragment_of_rightSide {t : Test}
    (h : t.operation spec column p q = .ok (.rightSide (t.rightSide p q))) :
    t.fragment spec column p q =
      .ok ⟨t.leftSide column ++ " " ++ t.rightSide p q, t.params p q⟩ := by
  rw [Test.fragment, h]
  rfl

theorem exists_fragment (column : String) (hav : PlainRange spec) {t : Test} (ht : t.Integral)
    (hp : ' ' ∉ p.toList) (hq : ' ' ∉ q.toList) (hpq : p ≠ q) :
    ∃ f, t.fragment spec column p q = .ok f ∧ f.params = t.params p q ∧
      ∀ x, HoldsIn column x f ↔ t.Meets x := by
  have hone : ∀ v : Value, Table.get? [(p, v)] p = some v := fun v => if_pos rfl
  have hnamed : ∀ r ∈ [p], ' ' ∉ r.toList := by
    intro r hr
    exact List.mem_singleton.mp hr ▸ hp
  cases ht with
  | between a b =>
    have hnamed₂ : ∀ r ∈ [p, q], ' ' ∉ r.toList := by
      intro r hr
      rcases List.mem_cons.mp hr with rfl | hr
      · exact hp
      · exact List.mem_singleton.mp hr ▸ hq
    have hgetp : Table.get? [(p, Value.int a), (q, .int b)] p = some (.int a) := if_pos rfl
    have hgetq : Table.get? [(p, Value.int a), (q, .int b)] q = some (.int b) := by
      rw [Table.get?, if_neg hpq, Table.get?, if_pos rfl]
    rcases filter_avoidBetween hav with hav | hav
    · exact exists_fragment_of_text (.between p q)
        (fragment_of_rightSide (operation_of_none hav _)) hnamed₂
        (Predicate.text_between column p q) fun x => Predicate.holds_between hgetp hgetq
    · have hf : (Test.between (.int a) (.int b)).fragment spec column p q =
          .ok ⟨(Predicate.enclosed p q).text column, [(p, .int a), (q, .int b)]⟩ := by
        rw [Test.fragment, operation_between hav]
        rfl
      exact exists_fragment_of_text (.enclosed p q) hf hnamed₂ rfl
        fun x => Predicate.holds_enclosed hgetp hgetq
  | compare c a =>
    exact exists_fragment_of_text (.compare c p) (fragment_of_rightSide rfl) hnamed
      (Predicate.text_compare c column p) fun x => Predicate.holds_compare (hone (.int a))
  | equal negated a =>
    exact exists_fragment_of_text (.equal negated p) (fragment_of_rightSide rfl) hnamed
      (Predicate.text_equal negated column p) fun x => Predicate.holds_equal (hone (.int a))
  | among negated ns =>
    exact exists_fragment_of_text (.among negated p) (fragment_of_rightSide rfl) hnamed
      (Predicate.text_among negated column p)
      fun x => Predicate.holds_among (hone (.list (ns.map .int)))

end Fragments

theorem blank_not_mem_baseOf (column : String) : ' ' ∉ (ParamNames.baseOf column).toList := by
  simp [ParamNames.baseOf, Text.isPlainWord, Text.isDigit]

theorem blank_not_mem_name {n : ParamNames} (hn : ' ' ∉ n.base.toList) (i : Nat) :
    ' ' ∉ (n.name i).toList := by
  intro h
  simp only [ParamNames.name, String.toList_append, List.mem_append] at h
  rcases h with h | h
  · exact hn h
  · have hd : ' ' ∈ Nat.toDigits 10 (n.counter + i) := by simpa using h
    exact absurd (Numeral.isDigit_of_mem_toDigits hd) (by decide)

end FieldRules.Filter
