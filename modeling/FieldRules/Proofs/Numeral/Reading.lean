import FieldRules.Proofs.Filter.Texts
import FieldRules.Proofs.Request.Validated

namespace FieldRules.Numeral

variable {cs : List Char} {s : String} {n : Int}

inductive Canonical : List Char → Prop
  | zero : Canonical ['0']
  | positive {c : Char} {cs : List Char} (hc : c ≠ '0')
      (hdigits : ∀ d ∈ c :: cs, Text.isDigit d = true) : Canonical (c :: cs)
  | negative {c : Char} {cs : List Char} (hc : c ≠ '0')
      (hdigits : ∀ d ∈ c :: cs, Text.isDigit d = true) : Canonical ('-' :: c :: cs)

theorem isNatural_cons_iff {c : Char} : isNatural (c :: cs) = true ↔
    (c = '0' ∧ cs = []) ∨ (c ≠ '0' ∧ ∀ d ∈ c :: cs, Text.isDigit d = true) := by
  simp [isNatural, and_assoc]

theorem isSigned_iff_canonical (cs : List Char) : isSigned cs = true ↔ Canonical cs := by
  constructor
  · intro h
    unfold isSigned at h
    split at h
    next ds =>
      simp only [Bool.and_eq_true, bne_iff_ne] at h
      obtain ⟨hnatural, hzero⟩ := h
      cases ds with
      | nil => cases hnatural
      | cons c ds =>
        rcases isNatural_cons_iff.mp hnatural with ⟨rfl, rfl⟩ | ⟨hc, hdigits⟩
        · exact absurd rfl hzero
        · exact .negative hc hdigits
    next =>
      cases cs with
      | nil => cases h
      | cons c cs =>
        rcases isNatural_cons_iff.mp h with ⟨rfl, rfl⟩ | ⟨hc, hdigits⟩
        · exact .zero
        · exact .positive hc hdigits
  · intro h
    cases h with
    | zero => rfl
    | positive hc hdigits =>
      exact isSigned_of_isNatural (isNatural_cons_iff.mpr (.inr ⟨hc, hdigits⟩))
    | negative hc hdigits =>
      simp [isSigned, isNatural_cons_iff.mpr (.inr ⟨hc, hdigits⟩), hc]

theorem canonical_iff (cs : List Char) : Canonical cs ↔ ∃ n : Int, cs = (toString n).toList := by
  rw [← isSigned_iff_canonical, isSigned_iff]

theorem spells_iff_form (cs : List Char) : (∃ n, Spells cs n) ↔
    ∃ k ds, cs = List.replicate k '+' ++ ds ∧ Canonical ds := by
  simp only [Spells, canonical_iff]
  constructor
  · rintro ⟨n, k, hk⟩
    exact ⟨k, _, hk, n, rfl⟩
  · rintro ⟨k, _, hk, n, rfl⟩
    exact ⟨n, k, hk⟩

theorem fits_of_spells (limit : DigitLimit) (h : Spells cs n) :
    fits limit cs = fits limit (toString n).toList := by
  obtain ⟨k, rfl⟩ := h
  have hpluses : (List.replicate k '+').filter Text.isDigit = [] :=
    List.filter_eq_nil_iff.mpr fun c hc => by
      rw [List.eq_of_mem_replicate hc]
      decide
  rw [fits, fits, List.filter_append, hpluses, List.nil_append]

/-- An integer that was read can be written: its text has the digits that were read. -/
theorem written_of_readInt (hint : isInt cs = true) (h : readInt digitLimit cs = .ok n) :
    (Value.int n).written? = .ok (toString n) := by
  unfold readInt at h
  split at h
  next hfits =>
    cases h
    rw [fits_of_spells _ (spells_intOf hint)] at hfits
    exact if_pos hfits
  next => cases h

def ReadAs (s : String) (v : Value) : Prop :=
  (∀ spec : RuleSpec, spec.base? = some .integer → Request.coerce none spec (.str s) = .ok v) ∧
    ∀ spec : RuleSpec, flag spec.date = false → spec.effectiveBase? = some .integer →
      Filter.boundValue none spec (.str s) = .ok v

theorem readAs_of_spells (h : Spells s.toList n) : ReadAs s (.int n) := by
  have hint : isInt s.toList = true := (isInt_iff _).mpr ⟨n, h⟩
  refine ⟨fun spec hbase => ?_, fun spec hdate hbase => ?_⟩
  · rw [Request.coerce_of_isInt none hbase hint, intOf_of_spells h]
    rfl
  · exact Filter.boundText_of_integer none hbase hdate h

theorem readAs_of_not_spells (h : ∀ n, ¬Spells s.toList n) : ReadAs s (.str s) := by
  have hint : isInt s.toList = false := by
    rw [← Bool.not_eq_true, isInt_iff]
    exact not_exists.mpr h
  exact ⟨fun spec hbase => Request.coerce_of_not_isInt none hbase hint,
    fun spec hdate hbase => Filter.boundText_of_not_isInt none hbase hdate hint⟩

/-- A text is an integer exactly when it spells one, which is then the only one it spells and the
    one it is read as; any other text is read as itself. -/
structure ReadExactly (s : String) : Prop where
  spells_iff : isInt s.toList = true ↔ ∃ n, Spells s.toList n
  form_iff : isInt s.toList = true ↔
    ∃ k cs, s.toList = List.replicate k '+' ++ cs ∧ Canonical cs
  unique : ∀ m n, Spells s.toList m → Spells s.toList n → m = n
  number : ∀ n, Spells s.toList n → ReadAs s (.int n)
  text : (∀ n, ¬Spells s.toList n) → ReadAs s (.str s)

theorem integer_texts_exact : (∀ s, ReadExactly s) ∧
    ∀ n : Int, Canonical (toString n).toList ∧ ReadAs (toString n) (.int n) := by
  refine ⟨fun s => ?_, fun n => ?_⟩
  · have hspells := isInt_iff s.toList
    exact ⟨hspells, hspells.trans (spells_iff_form _), fun m n => Spells.unique,
      fun n => readAs_of_spells, readAs_of_not_spells⟩
  · exact ⟨(canonical_iff _).mpr ⟨n, rfl⟩, readAs_of_spells (Filter.spells_toString n)⟩

theorem signed_texts_read : ReadAs "++-40" (.int (-40)) ∧ ReadAs "-+40" (.str "-+40") ∧
    ReadAs "-0" (.str "-0") := by
  obtain ⟨hexact, -⟩ := integer_texts_exact
  have hplain : ∀ s, isInt s.toList = false → ReadAs s (.str s) := by
    intro s hs
    refine (hexact s).text fun n hn => ?_
    rw [(hexact s).spells_iff.mpr ⟨n, hn⟩] at hs
    cases hs
  exact ⟨(hexact _).number _ ⟨2, by decide⟩, hplain _ (by decide), hplain _ (by decide)⟩

end FieldRules.Numeral
