import FieldRules.Proofs.Text.Replacing

namespace FieldRules.Text

def depth? : Nat → List Char → Option Nat
  | d, [] => some d
  | d, '(' :: cs => depth? (d + 1) cs
  | 0, ')' :: _ => none
  | d + 1, ')' :: cs => depth? d cs
  | d, _ :: cs => depth? d cs

def Balanced (s : String) : Prop := depth? 0 s.toList = some 0

instance (s : String) : Decidable (Balanced s) := inferInstanceAs (Decidable (_ = _))

variable {cs ds mark new out : List Char} {s t left right : String}

theorem depth?_cons_of_plain {c : Char} (hopen : c ≠ '(') (hclose : c ≠ ')') (d : Nat)
    (cs : List Char) : depth? d (c :: cs) = depth? d cs := by
  cases d <;> simp [depth?, hclose]

theorem depth?_append (d : Nat) (cs ds : List Char) :
    depth? d (cs ++ ds) = (depth? d cs).bind fun e => depth? e ds := by
  induction cs generalizing d with
  | nil => rfl
  | cons c cs ih =>
    by_cases hopen : c = '('
    · subst hopen
      simpa [depth?] using ih (d + 1)
    · by_cases hclose : c = ')'
      · subst hclose
        cases d with
        | zero => rfl
        | succ d => simpa [depth?] using ih d
      · simpa [depth?_cons_of_plain hopen hclose] using ih d

theorem depth?_add {d e : Nat} (h : depth? d cs = some e) (k : Nat) :
    depth? (d + k) cs = some (e + k) := by
  induction cs generalizing d with
  | nil =>
    cases h
    rfl
  | cons c cs ih =>
    by_cases hopen : c = '('
    · subst hopen
      have := ih h
      rwa [Nat.add_right_comm] at this
    · by_cases hclose : c = ')'
      · subst hclose
        cases d with
        | zero => cases h
        | succ d =>
          rw [Nat.add_right_comm]
          exact ih h
      · rw [depth?_cons_of_plain hopen hclose] at h ⊢
        exact ih h

theorem Balanced.depth? (h : Balanced s) (d : Nat) : depth? d s.toList = some d := by
  have := depth?_add h d
  rwa [Nat.zero_add] at this

theorem Balanced.append (hs : Balanced s) (ht : Balanced t) : Balanced (s ++ t) := by
  rw [Balanced, String.toList_append, depth?_append, hs]
  exact ht

theorem Balanced.within (k : Nat) (hleft : Text.depth? 0 left.toList = some k) (hs : Balanced s)
    (hright : Text.depth? k right.toList = some 0) : Balanced (left ++ s ++ right) := by
  rw [Balanced, String.toList_append, String.toList_append, depth?_append, depth?_append, hleft,
    Option.bind_some, hs.depth?]
  exact hright

def Unbracketed (s : String) : Prop := ∀ c ∈ s.toList, c ≠ '(' ∧ c ≠ ')'

theorem depth?_of_unbracketed (h : ∀ c ∈ cs, c ≠ '(' ∧ c ≠ ')') (d : Nat) :
    depth? d cs = some d := by
  induction cs with
  | nil => rfl
  | cons c cs ih =>
    obtain ⟨hopen, hclose⟩ := h c List.mem_cons_self
    rw [depth?_cons_of_plain hopen hclose]
    exact ih fun c hc => h c (List.mem_cons_of_mem _ hc)

theorem Unbracketed.balanced (h : Unbracketed s) : Balanced s := depth?_of_unbracketed h 0

theorem Unbracketed.append (hs : Unbracketed s) (ht : Unbracketed t) : Unbracketed (s ++ t) := by
  intro c hc
  rw [String.toList_append] at hc
  rcases List.mem_append.mp hc with hc | hc
  · exact hs c hc
  · exact ht c hc

theorem depth?_of_replaced (hmark : ∀ d, depth? d mark = some d)
    (hnew : ∀ d, depth? d new = some d) (h : Replaced mark new cs out) (d : Nat) :
    depth? d out = depth? d cs := by
  induction h generalizing d with
  | nil => rfl
  | @keep c cs out _ _ ih =>
    by_cases hopen : c = '('
    · subst hopen
      exact ih (d + 1)
    · by_cases hclose : c = ')'
      · subst hclose
        cases d with
        | zero => rfl
        | succ d => exact ih d
      · rw [depth?_cons_of_plain hopen hclose, depth?_cons_of_plain hopen hclose]
        exact ih d
  | swap _ ih =>
    rw [depth?_append, depth?_append, hmark, hnew]
    exact ih d

theorem Balanced.replaced {mark new : String} (hs : Balanced s) (hmark : Balanced mark)
    (hnew : Balanced new) (h : Replaced mark.toList new.toList s.toList t.toList) :
    Balanced t := by
  rw [Balanced, depth?_of_replaced hmark.depth? hnew.depth? h]
  exact hs

theorem depth?_intercalate {sep : String} (hsep : depth? 1 sep.toList = some 1)
    {texts : List String} (h : ∀ s ∈ texts, Balanced s) :
    depth? 1 (sep.intercalate texts).toList = some 1 := by
  induction texts with
  | nil => rfl
  | cons s texts ih =>
    have hs : Balanced s := h s List.mem_cons_self
    have htexts : ∀ s ∈ texts, Balanced s := fun t ht => h t (List.mem_cons_of_mem _ ht)
    cases texts with
    | nil =>
      rw [String.intercalate_singleton]
      exact hs.depth? 1
    | cons t texts =>
      rw [String.intercalate_cons_cons, String.toList_append, String.toList_append, depth?_append,
        depth?_append, hs.depth?, Option.bind_some, hsep]
      exact ih htexts

end FieldRules.Text
