import FieldRules.Proofs.Filter.Condition

namespace FieldRules

namespace Numeral

theorem Spells.mem {cs : List Char} {n : Int} (h : Spells cs n) {c : Char} (hc : c ∈ cs) :
    c = '+' ∨ c = '-' ∨ Text.isDigit c = true := by
  obtain ⟨k, rfl⟩ := h
  rcases List.mem_append.mp hc with hc | hc
  · exact .inl (List.eq_of_mem_replicate hc)
  · cases n with
    | ofNat m =>
      rw [Int.ofNat_eq_natCast, toString_ofNat] at hc
      exact .inr (.inr (isDigit_of_mem_toDigits hc))
    | negSucc m =>
      rw [toString_negSucc] at hc
      rcases List.mem_cons.mp hc with rfl | hc
      · exact .inr (.inl rfl)
      · exact .inr (.inr (isDigit_of_mem_toDigits hc))

theorem Spells.not_mem {cs : List Char} {n : Int} (h : Spells cs n) {c : Char}
    (hc : (c != '+' && c != '-' && !Text.isDigit c) = true) : c ∉ cs := by
  intro hm
  rcases h.mem hm with rfl | rfl | hd
  · simp at hc
  · simp at hc
  · simp [hd] at hc

end Numeral

namespace Filter

open Numeral

inductive Admits (x : Int) : List Char → Prop
  | range {low high : List Char} {a b : Int} : Spells low a → Spells high b → a ≤ x → x ≤ b →
      Admits x (low ++ '|' :: high)
  | compare (c : Comparator) {rest : List Char} {n : Int} : Spells rest n → c.Holds x n →
      Admits x (c.text.toList ++ rest)

def isOperator (cs : List Char) : Bool :=
  cs.contains '|' || cs.head? == some '<' || cs.head? == some '>'

def unmarked : List (List Char) → List (List Char)
  | ('!' :: cs) :: rest => cs :: rest
  | items => items

def isMarked : List (List Char) → Bool
  | ('!' :: _) :: _ => true
  | _ => false

def plainItems (items : List (List Char)) : List (List Char) :=
  (unmarked items).filter fun cs => !isOperator cs

def Selected (x : Int) (items : List (List Char)) : Prop :=
  (∃ cs ∈ items, Admits x cs) ∨
    (plainItems items ≠ [] ∧
      ((∃ cs ∈ plainItems items, Spells cs x) ↔ isMarked items = false))

theorem isOperator_of_admits {x : Int} {cs : List Char} (h : Admits x cs) :
    isOperator cs = true := by
  cases h with
  | range _ _ _ _ => simp [isOperator]
  | compare c _ _ => cases c <;> simp [isOperator, Comparator.text]

theorem bar_not_mem_compare (c : Comparator) {rest : List Char} {n : Int} (h : Spells rest n) :
    '|' ∉ c.text.toList ++ rest := by
  have := h.not_mem (c := '|') (by decide)
  cases c <;> simpa [Comparator.text]

theorem compare_unique {c c' : Comparator} {rest rest' : List Char} {n n' : Int}
    (h : Spells rest n) (h' : Spells rest' n')
    (he : c.text.toList ++ rest = c'.text.toList ++ rest') : c = c' ∧ n = n' := by
  have heq : '=' ∉ rest := h.not_mem (by decide)
  have heq' : '=' ∉ rest' := h'.not_mem (by decide)
  have hboth : c = c' ∧ rest = rest' := by
    cases c <;> cases c' <;> simp_all [Comparator.text] <;> simp [← he] at heq'
  obtain ⟨rfl, rfl⟩ := hboth
  exact ⟨rfl, h.unique h'⟩

theorem admits_range_iff {x a b : Int} {low high : List Char} (ha : Spells low a)
    (hb : Spells high b) : Admits x (low ++ '|' :: high) ↔ a ≤ x ∧ x ≤ b := by
  constructor
  · intro h
    generalize hcs : low ++ '|' :: high = cs at h
    cases h with
    | @range low' high' a' b' ha' hb' hlow hhigh =>
      obtain ⟨rfl, rfl⟩ := Text.cut_unique (ha.not_mem (by decide)) (ha'.not_mem (by decide)) hcs
      rw [ha.unique ha', hb.unique hb']
      exact ⟨hlow, hhigh⟩
    | compare c hn _ =>
      have hbar : '|' ∈ low ++ '|' :: high := by simp
      exact absurd (hcs ▸ hbar) (bar_not_mem_compare c hn)
  · rintro ⟨hlow, hhigh⟩
    exact .range ha hb hlow hhigh

theorem admits_compare_iff {x n : Int} (c : Comparator) {rest : List Char} (hn : Spells rest n) :
    Admits x (c.text.toList ++ rest) ↔ c.Holds x n := by
  constructor
  · intro h
    generalize hcs : c.text.toList ++ rest = cs at h
    cases h with
    | @range low high a b ha hb _ _ =>
      have hbar : '|' ∈ low ++ '|' :: high := by simp
      exact absurd (hcs ▸ hbar) (bar_not_mem_compare c hn)
    | compare c' hn' hx =>
      obtain ⟨rfl, rfl⟩ := compare_unique hn hn' hcs
      exact hx
  · intro hx
    exact .compare c hn hx

theorem isOperator_of_spells {cs : List Char} {n : Int} (h : Spells cs n) :
    isOperator cs = false := by
  have hbar : '|' ∉ cs := h.not_mem (by decide)
  have hless : '<' ∉ cs := h.not_mem (by decide)
  have hmore : '>' ∉ cs := h.not_mem (by decide)
  cases cs with
  | nil => rfl
  | cons c cs =>
    simp only [List.mem_cons, not_or] at hbar hless hmore
    simp [isOperator, hbar, Ne.symm hless.1, Ne.symm hmore.1]

theorem isOperator_of_marked {cs : List Char} {n : Int} (h : Spells cs n) :
    isOperator ('!' :: cs) = false := by
  have hbar : '|' ∉ cs := h.not_mem (by decide)
  simp [isOperator, hbar]

inductive Accepted (spec : RuleSpec) : Bool → List Char → Prop
  | range {first : Bool} {low high : List Char} {a b : Int} :
      flag spec.rangeAllowed = true → Spells low a → Spells high b →
        Accepted spec first (low ++ '|' :: high)
  | compare {first : Bool} (c : Comparator) {rest : List Char} {n : Int} :
      c.allowed spec = true → Spells rest n → Accepted spec first (c.text.toList ++ rest)
  | negated {rest : List Char} {n : Int} :
      flag spec.negationAllowed = true → Spells rest n → Accepted spec true ('!' :: rest)
  | plain {first : Bool} {cs : List Char} {n : Int} : Spells cs n → Accepted spec first cs

theorem spells_of_accepts {cs : List Char} (h : Reader.integer.accepts cs = .ok true) :
    Spells cs (intOf cs) := by
  apply spells_intOf
  simpa [Reader.accepts] using h

variable {spec : RuleSpec}

theorem comparison?_cases {cs rest : List Char} {allowed : Bool}
    (h : comparison? spec cs = some (allowed, rest)) :
    ∃ c : Comparator, cs = c.text.toList ++ rest ∧ allowed = c.allowed spec := by
  unfold comparison? at h
  split at h
  · obtain ⟨rfl, rfl⟩ := Prod.mk.inj (Option.some.inj h)
    exact ⟨.atMost, by simp [Comparator.text], rfl⟩
  · obtain ⟨rfl, rfl⟩ := Prod.mk.inj (Option.some.inj h)
    exact ⟨.atLeast, by simp [Comparator.text], rfl⟩
  · obtain ⟨rfl, rfl⟩ := Prod.mk.inj (Option.some.inj h)
    exact ⟨.below, by simp [Comparator.text], rfl⟩
  · obtain ⟨rfl, rfl⟩ := Prod.mk.inj (Option.some.inj h)
    exact ⟨.above, by simp [Comparator.text], rfl⟩
  · cases h

theorem accepted_of_comparableItem {first : Bool} {cs : List Char}
    (h : comparableItem spec .integer first cs = .ok true) : Accepted spec first cs := by
  unfold comparableItem at h
  split at h
  next hrange =>
    simp only [Bool.and_eq_true] at hrange
    dsimp only at h
    split at h
    next hpair =>
      obtain ⟨low, high, hlow, hhigh, rfl⟩ := Text.splitOn_eq_pair hpair
      rw [Text.splitOn_append_cons hlow, Text.splitOn_of_not_mem hhigh] at h
      simp only [Reader.acceptsAll] at h
      split at h
      next hl =>
        split at h
        next hh => exact .range hrange.1 (spells_of_accepts hl) (spells_of_accepts hh)
        next hh => exact absurd h hh
      next hl => exact absurd h hl
    · cases h
  next =>
    split at h
    next allowed rest hc =>
      obtain ⟨c, rfl, rfl⟩ := comparison?_cases hc
      split at h
      next ha => exact .compare c ha (spells_of_accepts h)
      next => cases h
    next =>
      split at h
      next rest =>
        split at h
        next hn =>
          simp only [Bool.and_eq_true] at hn
          obtain ⟨hn, rfl⟩ := hn
          exact .negated hn (spells_of_accepts h)
        next => cases h
      next => exact .plain (spells_of_accepts h)

theorem accepted_of_comparableItems {first : Bool} {cs : List Char} {rest : List (List Char)}
    (h : comparableItems spec .integer first (cs :: rest) = .ok true) :
    Accepted spec first cs ∧ ∀ ds ∈ rest, Accepted spec false ds := by
  induction rest generalizing first cs with
  | nil =>
    simp only [comparableItems] at h
    split at h
    next hcs => exact ⟨accepted_of_comparableItem hcs, by simp⟩
    next hcs => exact absurd h hcs
  | cons ds rest ih =>
    rw [comparableItems] at h
    split at h
    next hcs =>
      obtain ⟨hds, hrest⟩ := ih h
      refine ⟨accepted_of_comparableItem hcs, ?_⟩
      intro es hes
      rcases List.mem_cons.mp hes with rfl | hes
      · exact hds
      · exact hrest es hes
    next hcs => exact absurd h hcs

theorem comparableItem_of_spells (first : Bool) {cs : List Char} {n : Int} (h : Spells cs n) :
    comparableItem spec .integer first cs = .ok true := by
  have hbar : '|' ∉ cs := h.not_mem (by decide)
  have hless : '<' ∉ cs := h.not_mem (by decide)
  have hmore : '>' ∉ cs := h.not_mem (by decide)
  have hmark : '!' ∉ cs := h.not_mem (by decide)
  have haccepts : Reader.integer.accepts cs = .ok true :=
    congrArg Except.ok ((isInt_iff cs).mpr ⟨n, h⟩)
  have hrange : (flag spec.rangeAllowed && cs.contains '|') = false := by simp [hbar]
  have hnone : comparison? spec cs = none := by
    unfold comparison?
    split
    · exact absurd List.mem_cons_self hless
    · exact absurd List.mem_cons_self hmore
    · exact absurd List.mem_cons_self hless
    · exact absurd List.mem_cons_self hmore
    · rfl
  unfold comparableItem
  rw [hrange, if_neg Bool.false_ne_true, hnone]
  dsimp only
  split
  · exact absurd List.mem_cons_self hmark
  · exact haccepts

theorem Accepted.of_marked {first : Bool} {rest : List Char}
    (h : Accepted spec first ('!' :: rest)) :
    first = true ∧ flag spec.negationAllowed = true ∧ ∃ n, Spells rest n := by
  generalize hcs : '!' :: rest = cs at h
  cases h with
  | @range _ low high a b _ ha _ =>
    cases low with
    | nil => simp at hcs
    | cons c low =>
      obtain ⟨rfl, -⟩ := List.cons.inj hcs
      exact absurd List.mem_cons_self (ha.not_mem (by decide))
  | compare c _ _ => cases c <;> simp [Comparator.text] at hcs
  | @negated rest' n hn h =>
    obtain ⟨-, rfl⟩ := List.cons.inj hcs
    exact ⟨rfl, hn, n, h⟩
  | plain h => exact absurd (hcs ▸ List.mem_cons_self) (h.not_mem (c := '!') (by decide))

theorem Accepted.spells {first : Bool} {cs : List Char} (h : Accepted spec first cs)
    (hop : isOperator cs = false) (hmark : cs.head? ≠ some '!') : ∃ n, Spells cs n := by
  cases h with
  | range _ _ _ => simp [isOperator] at hop
  | compare c _ _ => cases c <;> simp [isOperator, Comparator.text] at hop
  | negated _ _ => exact absurd rfl hmark
  | plain h => exact ⟨_, h⟩

end Filter

end FieldRules
