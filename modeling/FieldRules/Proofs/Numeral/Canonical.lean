import FieldRules.Number.Numeral
import Mathlib.Algebra.Ring.Nat
import Mathlib.Data.List.Induction

namespace FieldRules.Numeral

theorem isDigit_iff (c : Char) : Text.isDigit c = true ↔ 48 ≤ c.toNat ∧ c.toNat ≤ 57 := by
  simp only [Text.isDigit, Bool.and_eq_true, decide_eq_true_eq]
  rfl

theorem digitChar_of_isDigit {c : Char} (h : Text.isDigit c = true) :
    Nat.digitChar (c.toNat - 48) = c := by
  obtain ⟨hlow, hhigh⟩ := (isDigit_iff c).mp h
  apply Char.toNat_inj.mp
  rw [Nat.toNat_digitChar_of_lt_ten (by omega)]
  omega

theorem isDigit_of_mem_toDigits {n : Nat} {c : Char} (h : c ∈ Nat.toDigits 10 n) :
    Text.isDigit c = true := by
  have hd : c.isDigit = true := Nat.isDigit_of_mem_toDigits (by decide) (by decide) h
  exact (isDigit_iff c).mpr (Char.isDigit_iff_toNat.mp hd)

theorem natOf_toDigits (n : Nat) : natOf (Nat.toDigits 10 n) = n :=
  Nat.ofDigitChars_ten_toDigits

theorem natOf_append (xs ys : List Char) :
    natOf (xs ++ ys) = 10 ^ ys.length * natOf xs + natOf ys := by
  change Nat.ofDigitChars 10 (xs ++ ys) 0 = _
  rw [Nat.ofDigitChars_append, Nat.ofDigitChars_eq_ofDigitChars_zero]
  rfl

theorem natOf_concat (xs : List Char) (c : Char) :
    natOf (xs ++ [c]) = 10 * natOf xs + (c.toNat - 48) := by
  simp [natOf]

theorem toDigits_injective {m n : Nat} (h : Nat.toDigits 10 m = Nat.toDigits 10 n) : m = n := by
  rw [← natOf_toDigits m, ← natOf_toDigits n, h]

theorem head_toDigits_ne_zero {n : Nat} (h : 0 < n) (rest : List Char) :
    Nat.toDigits 10 n ≠ '0' :: rest := by
  induction n using Nat.strongRecOn generalizing rest with
  | ind n ih =>
    intro he
    by_cases hn : n < 10
    · rw [Nat.toDigits_of_lt_base hn] at he
      obtain ⟨hc, -⟩ := List.cons.inj he
      have hv := congrArg Char.toNat hc
      rw [Nat.toNat_digitChar_of_lt_ten hn] at hv
      simp at hv
      omega
    · rw [Nat.toDigits_of_base_le (by decide) (by omega)] at he
      cases hd : Nat.toDigits 10 (n / 10) with
      | nil => exact Nat.toDigits_ne_nil hd
      | cons c cs =>
        rw [hd] at he
        obtain ⟨rfl, -⟩ := List.cons.inj he
        exact ih (n / 10) (by omega) (by omega) cs hd

theorem toDigits_natOf {cs : List Char} (hne : cs ≠ []) (hhead : cs.head? ≠ some '0')
    (hall : ∀ c ∈ cs, Text.isDigit c = true) : Nat.toDigits 10 (natOf cs) = cs := by
  -- the last digit is the one that division by ten splits off
  induction cs using List.reverseRecOn with
  | nil => exact absurd rfl hne
  | append_singleton xs c ih =>
    have hc : Text.isDigit c = true := hall c (by simp)
    obtain ⟨hlow, hhigh⟩ := (isDigit_iff c).mp hc
    rw [natOf_concat]
    by_cases hx : xs = []
    · subst hx
      simp only [natOf, List.foldl_nil, Nat.mul_zero, Nat.zero_add, List.nil_append]
      rw [Nat.toDigits_of_lt_base (by omega), digitChar_of_isDigit hc]
    · have hxhead : xs.head? ≠ some '0' := by
        cases xs with
        | nil => exact absurd rfl hx
        | cons d ds => simpa using hhead
      have hxs := ih hx hxhead fun d hd => hall d (by simp [hd])
      have hpos : 0 < natOf xs := by
        rcases Nat.eq_zero_or_pos (natOf xs) with h0 | h0
        · rw [h0, Nat.toDigits_zero] at hxs
          rw [← hxs] at hxhead
          exact absurd rfl hxhead
        · exact h0
      have hd : c.toNat - 48 < 10 := by omega
      rw [← Nat.toDigits_append_toDigits (by decide) hpos hd, hxs,
        Nat.toDigits_of_lt_base hd, digitChar_of_isDigit hc]

theorem isNatural_toDigits (n : Nat) : isNatural (Nat.toDigits 10 n) = true := by
  cases hd : Nat.toDigits 10 n with
  | nil => exact absurd hd Nat.toDigits_ne_nil
  | cons c cs =>
    have hall : ∀ d ∈ c :: cs, Text.isDigit d = true := by
      intro d hm
      exact isDigit_of_mem_toDigits (hd ▸ hm)
    rcases Nat.eq_zero_or_pos n with rfl | hn
    · rw [Nat.toDigits_zero] at hd
      obtain ⟨rfl, rfl⟩ := List.cons.inj hd
      rfl
    · have hc : c ≠ '0' := by
        rintro rfl
        exact head_toDigits_ne_zero hn cs hd
      have hcs : cs.all Text.isDigit = true :=
        List.all_eq_true.mpr fun d hm => hall d (List.mem_cons_of_mem c hm)
      simp [isNatural, hc, hcs, hall c (by simp)]

theorem isNatural_iff (cs : List Char) :
    isNatural cs = true ↔ ∃ n, cs = Nat.toDigits 10 n := by
  constructor
  · intro h
    cases cs with
    | nil => simp [isNatural] at h
    | cons c cs =>
      simp only [isNatural, Bool.or_eq_true, Bool.and_eq_true, beq_iff_eq, bne_iff_ne,
        List.isEmpty_iff, List.all_eq_true] at h
      rcases h with ⟨rfl, rfl⟩ | ⟨⟨hc, hd⟩, hall⟩
      · exact ⟨0, (Nat.toDigits_zero 10).symm⟩
      · refine ⟨natOf (c :: cs), (toDigits_natOf (by simp) (by simpa using hc) ?_).symm⟩
        intro d hm
        rcases List.mem_cons.mp hm with rfl | hm
        · exact hd
        · exact hall d hm
  · rintro ⟨n, rfl⟩
    exact isNatural_toDigits n

/-- A text spells an integer when it is the integer's decimal text after any plus signs. -/
def Spells (cs : List Char) (n : Int) : Prop :=
  ∃ k, cs = List.replicate k '+' ++ (toString n).toList

theorem toString_ofNat (n : Nat) : (toString (n : Int)).toList = Nat.toDigits 10 n := by
  simp [Int.toString_eq_repr, Int.repr]

theorem toString_negSucc (n : Nat) :
    (toString (Int.negSucc n)).toList = '-' :: Nat.toDigits 10 (n + 1) := by
  simp [Int.toString_eq_repr, Int.repr, String.toList_append]

theorem withoutPluses_replicate (k : Nat) (cs : List Char) :
    withoutPluses (List.replicate k '+' ++ cs) = withoutPluses cs := by
  simp [withoutPluses]

theorem eq_replicate_append_withoutPluses (cs : List Char) :
    ∃ k, cs = List.replicate k '+' ++ withoutPluses cs := by
  induction cs with
  | nil => exact ⟨0, rfl⟩
  | cons c cs ih =>
    by_cases hc : c = '+'
    · subst hc
      obtain ⟨k, hk⟩ := ih
      refine ⟨k + 1, ?_⟩
      rw [List.replicate_succ, List.cons_append]
      exact congrArg ('+' :: ·) hk
    · exact ⟨0, by simp [withoutPluses, hc]⟩

theorem toDigits_eq_cons (n : Nat) :
    ∃ c cs, Nat.toDigits 10 n = c :: cs ∧ Text.isDigit c = true := by
  cases hd : Nat.toDigits 10 n with
  | nil => exact absurd hd Nat.toDigits_ne_nil
  | cons c cs => exact ⟨c, cs, rfl, isDigit_of_mem_toDigits (hd ▸ List.mem_cons_self)⟩

theorem withoutPluses_toString (n : Int) :
    withoutPluses (toString n).toList = (toString n).toList := by
  cases n with
  | ofNat m =>
    obtain ⟨c, cs, hd, hc⟩ := toDigits_eq_cons m
    have hp : c ≠ '+' := by
      rintro rfl
      simp [Text.isDigit] at hc
    rw [Int.ofNat_eq_natCast, toString_ofNat, hd]
    simp [withoutPluses, hp]
  | negSucc m =>
    rw [toString_negSucc]
    rfl

theorem isSigned_of_isNatural {cs : List Char} (h : isNatural cs = true) :
    isSigned cs = true := by
  unfold isSigned
  split
  · simp [isNatural, Text.isDigit] at h
  · exact h

theorem isSigned_iff (cs : List Char) :
    isSigned cs = true ↔ ∃ n : Int, cs = (toString n).toList := by
  constructor
  · intro h
    unfold isSigned at h
    split at h
    next ds =>
      simp only [Bool.and_eq_true, bne_iff_ne] at h
      obtain ⟨m, rfl⟩ := (isNatural_iff ds).mp h.1
      cases m with
      | zero => exact absurd (Nat.toDigits_zero 10) h.2
      | succ m => exact ⟨Int.negSucc m, (toString_negSucc m).symm⟩
    next =>
      obtain ⟨m, rfl⟩ := (isNatural_iff _).mp h
      exact ⟨m, (toString_ofNat m).symm⟩
  · rintro ⟨n, rfl⟩
    cases n with
    | ofNat m =>
      rw [Int.ofNat_eq_natCast, toString_ofNat]
      exact isSigned_of_isNatural (isNatural_toDigits m)
    | negSucc m =>
      rw [toString_negSucc]
      have hz : Nat.toDigits 10 (m + 1) ≠ ['0'] := head_toDigits_ne_zero (Nat.succ_pos m) []
      simp [isSigned, isNatural_toDigits, hz]

theorem isInt_iff (cs : List Char) : isInt cs = true ↔ ∃ n, Spells cs n := by
  unfold isInt
  rw [isSigned_iff]
  constructor
  · rintro ⟨n, hn⟩
    obtain ⟨k, hk⟩ := eq_replicate_append_withoutPluses cs
    exact ⟨n, k, hk.trans (by rw [hn])⟩
  · rintro ⟨n, k, rfl⟩
    exact ⟨n, by rw [withoutPluses_replicate, withoutPluses_toString]⟩

theorem intOf_of_spells {cs : List Char} {n : Int} (h : Spells cs n) : intOf cs = n := by
  obtain ⟨k, rfl⟩ := h
  unfold intOf
  rw [withoutPluses_replicate, withoutPluses_toString]
  cases n with
  | ofNat m =>
    obtain ⟨c, cs, hd, hc⟩ := toDigits_eq_cons m
    rw [Int.ofNat_eq_natCast, toString_ofNat]
    split
    next ds he =>
      rw [hd] at he
      obtain ⟨rfl, -⟩ := List.cons.inj he
      simp [Text.isDigit] at hc
    next => rw [natOf_toDigits]
  | negSucc m =>
    rw [toString_negSucc]
    simp only [natOf_toDigits]
    rfl

theorem Spells.unique {cs : List Char} {m n : Int} (hm : Spells cs m) (hn : Spells cs n) :
    m = n :=
  (intOf_of_spells hm).symm.trans (intOf_of_spells hn)

theorem spells_intOf {cs : List Char} (h : isInt cs = true) : Spells cs (intOf cs) := by
  obtain ⟨n, hn⟩ := (isInt_iff cs).mp h
  rwa [intOf_of_spells hn]

end FieldRules.Numeral
