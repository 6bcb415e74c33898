import FieldRules.Filter.Build
import FieldRules.Proofs.Numeral.Canonical
import FieldRules.Proofs.Text.Pieces

namespace FieldRules.Filter

open Numeral

variable {limit : DigitLimit} {spec : RuleSpec} {data : Table Value} {name s : String} {n : Int}

theorem typed_str (s : String) : (Value.str s).typed = s := rfl

theorem informed?_str (hget : data.get? name = some (.str s)) (hs : s ≠ "") :
    Grammar.informed? data name = some (.str s) := by
  simp [Grammar.informed?, hget, Value.isBlank, hs]

theorem listItems_of_str (spec : RuleSpec) (s : String) : Grammar.listItems spec (.str s) =
    if flag spec.listAllowed then Text.pieces s ',' else [s] := rfl

theorem listItems_ne_nil (spec : RuleSpec) (s : String) :
    Grammar.listItems spec (.str s) ≠ [] := by
  rw [listItems_of_str]
  split
  · simp [Text.pieces, Text.splitOn_ne_nil]
  · exact List.cons_ne_nil _ _

theorem listItems_of_not_mem (spec : RuleSpec) (h : ',' ∉ s.toList) :
    Grammar.listItems spec (.str s) = [s] := by
  rw [listItems_of_str, Text.pieces, Text.splitOn_of_not_mem h, List.map_singleton,
    String.ofList_toList, ite_self]

theorem items_of_str (hplain : isPlain spec = false) (s : String) :
    items spec (.str s) = .ok (Grammar.listItems spec (.str s)) := by
  unfold items
  rw [listItems_of_str]
  cases flag spec.listAllowed <;> simp [Value.items?, typed_str, hplain]

theorem negatedItems_of_not_marked (spec : RuleSpec) (h : s.toList.head? ≠ some '!')
    (rest : List String) : negatedItems spec (s :: rest) = (false, s :: rest) := by
  rw [negatedItems]
  split
  next cs _ hcs => exact absurd (by rw [hcs]; rfl) h
  next => rfl

theorem boundText_str (hbase : spec.effectiveBase? = some .string) (s : String) :
    boundText limit spec s = .ok (.str s) := by
  simp [boundText, hbase]

theorem boundText_of_integer (limit : DigitLimit)
    (hbase : spec.effectiveBase? = some .integer) (hdate : flag spec.date = false)
    (h : Spells s.toList n) :
    boundText limit spec s =
      if fits limit s.toList then .ok (.int n) else .error .tooManyDigits := by
  have hint : isInt s.toList = true := (isInt_iff _).mpr ⟨n, h⟩
  rw [boundText, hdate, if_neg Bool.false_ne_true, hbase]
  dsimp only
  rw [if_pos hint, readInt, intOf_of_spells h]
  split <;> rfl

theorem boundText_of_not_isInt (limit : DigitLimit) (hbase : spec.effectiveBase? = some .integer)
    (hdate : flag spec.date = false) (h : isInt s.toList = false) :
    boundText limit spec s = .ok (.str s) := by
  simp [boundText, hbase, hdate, h]

theorem spells_toString (n : Int) : Spells (toString n).toList n := ⟨0, rfl⟩

end FieldRules.Filter
