import FieldRules.Condition.Tree
import FieldRules.Fault
import FieldRules.Proofs.Text.Balance

namespace FieldRules

namespace Connective

def combine : Connective → List Bool → Bool
  | and, bs => bs.all id
  | or, bs => bs.any id

def combine? (kind : Connective) : List Bool → Option Bool
  | [] => none
  | bs => some (kind.combine bs)

theorem combine?_eq_none_iff {kind : Connective} {bs : List Bool} :
    kind.combine? bs = none ↔ bs = [] := by
  cases bs <;> simp [combine?]

theorem combine?_eq_some_iff {kind : Connective} {bs : List Bool} {b : Bool} :
    kind.combine? bs = some b ↔ bs ≠ [] ∧ kind.combine bs = b := by
  cases bs <;> simp [combine?]

theorem combine_singleton (kind : Connective) (b : Bool) : kind.combine [b] = b := by
  cases kind <;> simp [combine]

end Connective

def bracketed (kind : Connective) (texts : List String) : String :=
  "(" ++ String.intercalate (") " ++ kind.text ++ " (") texts ++ ")"

/-- A truth evaluation of conditions that reads bracketed groups. -/
def ReadsGroups (E : String → Bool) : Prop :=
  ∀ kind texts, 2 ≤ texts.length → (∀ s ∈ texts, Text.Balanced s) →
    E (bracketed kind texts) = kind.combine (texts.map E)

theorem join_eq_intercalate (sep : String) (texts : List String) :
    Text.join sep texts = sep.intercalate texts := by
  induction texts with
  | nil => rfl
  | cons s texts ih =>
    cases texts with
    | nil => simp [Text.join]
    | cons t texts => rw [Text.join, ih, String.intercalate_cons_cons]

theorem joinedText_of_two_le (kind : Connective) {texts : List String} (h : 2 ≤ texts.length) :
    joinedText kind texts = bracketed kind texts := by
  unfold joinedText
  split
  · simp at h
  · rw [join_eq_intercalate, bracketed]

theorem balanced_bracketed (kind : Connective) {texts : List String}
    (h : ∀ s ∈ texts, Text.Balanced s) : Text.Balanced (bracketed kind texts) := by
  have hsep : Text.depth? 1 (") " ++ kind.text ++ " (").toList = some 1 := by
    cases kind <;> decide
  rw [bracketed, Text.Balanced, String.toList_append, String.toList_append, Text.depth?_append,
    Text.depth?_append]
  have hopen : Text.depth? 0 "(".toList = some 1 := by decide
  rw [hopen, Option.bind_some, Text.depth?_intercalate hsep h]
  decide

variable {E : String → Bool}

theorem ReadsGroups.joinedText (hE : ReadsGroups E) (kind : Connective) {texts : List String}
    (hne : texts ≠ []) (h : ∀ s ∈ texts, Text.Balanced s) :
    E (joinedText kind texts) = kind.combine (texts.map E) ∧
      Text.Balanced (joinedText kind texts) := by
  cases texts with
  | nil => exact absurd rfl hne
  | cons s texts =>
    cases texts with
    | nil => exact ⟨(kind.combine_singleton (E s)).symm, h s List.mem_cons_self⟩
    | cons t texts =>
      have htwo : 2 ≤ (s :: t :: texts).length := by simp
      rw [joinedText_of_two_le kind htwo]
      exact ⟨hE kind _ htwo h, balanced_bracketed kind h⟩

namespace Part

mutual

def holds (E : String → Bool) : Part → Bool
  | leaf v => E v.text
  | fragment f => E f.expression
  | group kind parts => kind.combine (holdsAll E parts)

def holdsAll (E : String → Bool) : List Part → List Bool
  | [] => []
  | p :: ps => holds E p :: holdsAll E ps

end

mutual

def Sound : Part → Prop
  | leaf v => Text.Balanced v.text
  | fragment f => Text.Balanced f.expression
  | group _ parts => parts ≠ [] ∧ AllSound parts

def AllSound : List Part → Prop
  | [] => True
  | p :: ps => Sound p ∧ AllSound ps

end

theorem holdsAll_eq_map (ps : List Part) : holdsAll E ps = ps.map (holds E) := by
  induction ps with
  | nil => rfl
  | cons p ps ih => rw [holdsAll, ih, List.map_cons]

theorem allSound_iff {ps : List Part} : AllSound ps ↔ ∀ p ∈ ps, p.Sound := by
  induction ps with
  | nil => simp [AllSound]
  | cons p ps ih => simp [AllSound, ih]

theorem texts_eq_map (ps : List Part) : texts ps = ps.map text := by
  induction ps with
  | nil => rfl
  | cons p ps ih => rw [texts, ih, List.map_cons]

mutual

theorem holds_text (hE : ReadsGroups E) : ∀ p : Part, p.Sound →
    E p.text = p.holds E ∧ Text.Balanced p.text
  | leaf v, h => ⟨rfl, h⟩
  | fragment f, h => ⟨rfl, h⟩
  | group kind parts, h => by
    obtain ⟨hne, hparts⟩ := h
    obtain ⟨htruths, hbalanced⟩ := holds_texts hE parts hparts
    have htexts : texts parts ≠ [] := by rwa [texts_eq_map, ne_eq, List.map_eq_nil_iff]
    obtain ⟨htruth, hall⟩ := hE.joinedText kind htexts hbalanced
    rw [text, holds, ← htruths]
    exact ⟨htruth, hall⟩

theorem holds_texts (hE : ReadsGroups E) : ∀ ps : List Part, AllSound ps →
    (texts ps).map E = holdsAll E ps ∧ ∀ s ∈ texts ps, Text.Balanced s
  | [], _ => ⟨rfl, by simp [texts]⟩
  | p :: ps, h => by
    obtain ⟨hp, hps⟩ := h
    obtain ⟨htruth, hbalanced⟩ := holds_text hE p hp
    obtain ⟨htruths, hall⟩ := holds_texts hE ps hps
    rw [texts, holdsAll, List.map_cons, htruth, htruths]
    exact ⟨rfl, List.forall_mem_cons.mpr ⟨hbalanced, hall⟩⟩

end

end Part

end FieldRules
