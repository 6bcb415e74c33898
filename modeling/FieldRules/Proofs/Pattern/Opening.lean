import FieldRules.Pattern.Parse

namespace FieldRules.Pattern

variable {p b : Pattern} {s : Spot} {c : Char} {cs : List Char} {k : Spot → Option Spot}

def Opens (p : Pattern) (s : Spot) : Prop := (run p s some).isSome = true

-- A pattern that is one character.
def letter (c : Char) : Pattern := one none (.single c)

theorem single_has_iff {d : Char} : (CharSet.single c).has none d = true ↔ d = c := by
  have hcode : (c.toNat ≤ d.toNat ∧ d.toNat ≤ c.toNat) ↔ d = c := by
    rw [← Char.toNat_inj]
    omega
  simpa [CharSet.single, CharSet.has] using hcode

theorem run_letter_cons {d : Char} {rest : List Char} (h : s.after = d :: rest) :
    run (letter c) s k = if d = c then k (s.step c rest) else none := by
  simp only [letter, run, h, single_has_iff]
  split
  next hd => rw [hd]
  next => rfl

theorem run_letter_nil (h : s.after = []) : run (letter c) s k = none := by
  simp only [letter, run, h]

theorem opens_letter_iff : Opens (seq (letter c) b) s ↔
    ∃ rest, s.after = c :: rest ∧ Opens b (s.step c rest) := by
  unfold Opens
  rw [run]
  cases h : s.after with
  | nil => simp [run_letter_nil h]
  | cons d rest =>
    rw [run_letter_cons h]
    split
    next hd => simp [hd]
    next hd => simp [hd]

theorem opens_last_iff : Opens (letter c) s ↔ ∃ rest, s.after = c :: rest := by
  unfold Opens
  cases h : s.after with
  | nil => simp [run_letter_nil h]
  | cons d rest =>
    rw [run_letter_cons h]
    split
    next hd => simp [hd]
    next hd => simp [hd]

theorem run_optional : run (repeated .greedy p 0 (some 1)) s k = (run p s k <|> k s) := by
  have hrounds : rounds 0 (some 1) s = 1 := by
    rw [rounds]
    omega
  rw [run, if_neg (by decide), times, hrounds]
  simp [more]

theorem opens_optional_iff : Opens (seq (repeated .greedy (letter c) 0 (some 1)) b) s ↔
    Opens b s ∨ ∃ rest, s.after = c :: rest ∧ Opens b (s.step c rest) := by
  have hletter : Opens (seq (letter c) b) s ↔
      (run (letter c) s fun t => run b t some).isSome = true := by
    rw [Opens, run]
  rw [← opens_letter_iff, hletter, Opens, Opens, run, run_optional, or_comm]
  cases run (letter c) s fun t => run b t some <;> simp

theorem place_ne_zero_of_onwards {place : Nat} {before : List Char} {t : Spot}
    (h : t ∈ Spot.onwards (place + 1) before cs) : t.place ≠ 0 := by
  induction cs generalizing place before with
  | nil =>
    obtain rfl := List.mem_singleton.mp h
    exact Nat.succ_ne_zero place
  | cons c cs ih =>
    rcases List.mem_cons.mp h with rfl | h
    · exact Nat.succ_ne_zero place
    · exact ih h

theorem opens_textStart_iff : Opens (seq textStart b) s ↔ s.place = 0 ∧ Opens b s := by
  unfold Opens
  rw [run, run]
  split
  next h => simp [h]
  next h => simp [h]

theorem found_textStart_iff : found (seq textStart b) cs = true ↔ Opens b (Spot.first cs) := by
  have hfound : found (seq textStart b) cs = true ↔
      ∃ t ∈ Spot.onwards 0 [] cs, t.place = 0 ∧ Opens b t := by
    simp only [← opens_textStart_iff]
    simp only [found, List.any_eq_true, Opens]
  rw [hfound]
  constructor
  · rintro ⟨t, ht, hplace, hopens⟩
    cases cs with
    | nil =>
      obtain rfl := List.mem_singleton.mp ht
      exact hopens
    | cons c cs =>
      rcases List.mem_cons.mp ht with rfl | ht
      · exact hopens
      · exact absurd hplace (place_ne_zero_of_onwards ht)
  · intro hopens
    refine ⟨Spot.first cs, ?_, rfl, hopens⟩
    cases cs <;> exact List.mem_cons_self

end FieldRules.Pattern
