import FieldRules.Proofs.Numeral.Canonical
import FieldRules.Proofs.Text.Pieces

namespace FieldRules.Request

inductive Step where
  | entry (name : String)
  | item (index : Nat)
  deriving DecidableEq, Repr

def PlainName (name : String) : Prop := '.' ∉ name.toList ∧ '[' ∉ name.toList

instance (name : String) : Decidable (PlainName name) :=
  inferInstanceAs (Decidable (_ ∧ _))

namespace Step

def text : Step → String
  | entry name => "." ++ name
  | item i => "[" ++ toString i ++ "]"

def Plain : Step → Prop
  | entry name => PlainName name
  | item _ => True

end Step

def extend (path : String) (steps : List Step) : String :=
  steps.foldl (fun path step => path ++ step.text) path

structure Address where
  name : String
  steps : List Step := []
  deriving DecidableEq, Repr

namespace Address

def text (a : Address) : String := extend a.name a.steps

def Plain (a : Address) : Prop := PlainName a.name ∧ ∀ step ∈ a.steps, step.Plain

end Address

variable {path : String} {steps others : List Step} {cs ds rest tail : List Char}

theorem extend_append (path : String) (steps others : List Step) :
    extend path (steps ++ others) = extend (extend path steps) others :=
  List.foldl_append

theorem toList_extend (path : String) (steps : List Step) :
    (extend path steps).toList = path.toList ++ steps.flatMap (·.text.toList) := by
  induction steps generalizing path with
  | nil => simp [extend]
  | cons step steps ih =>
    have hcons : extend path (step :: steps) = extend (path ++ step.text) steps := rfl
    rw [hcons, ih, String.toList_append, List.flatMap_cons, List.append_assoc]

def isMark (c : Char) : Bool := c == '.' || c == '['

theorem isMark_of_mem (h : '.' ∉ cs ∧ '[' ∉ cs) : ∀ c ∈ cs, (!isMark c) = true := by
  intro c hc
  have hdot : c ≠ '.' := fun heq => h.1 (heq ▸ hc)
  have hbracket : c ≠ '[' := fun heq => h.2 (heq ▸ hc)
  simp [isMark, hdot, hbracket]

theorem toList_item (i : Nat) :
    (Step.item i).text.toList = '[' :: (Nat.toDigits 10 i ++ [']']) := by
  simp [Step.text, String.toList_append]

theorem toList_entry (name : String) : (Step.entry name).text.toList = '.' :: name.toList := by
  simp [Step.text, String.toList_append]

def Marked (cs : List Char) : Prop := ∀ c ∈ cs.head?, isMark c = true

theorem marked_steps (steps : List Step) : Marked (steps.flatMap (·.text.toList)) := by
  cases steps with
  | nil => simp [Marked]
  | cons step steps => cases step <;> simp [Marked, toList_entry, toList_item, isMark]

theorem takeWhile_lead (hcs : '.' ∉ cs ∧ '[' ∉ cs) (hrest : Marked rest) :
    (cs ++ rest).takeWhile (fun c => !isMark c) = cs := by
  have hnone : rest.takeWhile (fun c => !isMark c) = [] := by
    cases rest with
    | nil => rfl
    | cons c rest => simp [hrest c rfl]
  rw [List.takeWhile_append_of_pos (isMark_of_mem hcs), hnone, List.append_nil]

theorem lead_unique (hcs : '.' ∉ cs ∧ '[' ∉ cs) (hds : '.' ∉ ds ∧ '[' ∉ ds) (hrest : Marked rest)
    (htail : Marked tail) (h : cs ++ rest = ds ++ tail) : cs = ds ∧ rest = tail := by
  have htake := congrArg (List.takeWhile fun c => !isMark c) h
  rw [takeWhile_lead hcs hrest, takeWhile_lead hds htail] at htake
  subst htake
  exact ⟨rfl, List.append_cancel_left h⟩

theorem index_unique {i j : Nat}
    (h : Nat.toDigits 10 i ++ ']' :: rest = Nat.toDigits 10 j ++ ']' :: tail) :
    i = j ∧ rest = tail := by
  have hdigits : ∀ n, ']' ∉ Nat.toDigits 10 n :=
    fun n hmem => absurd (Numeral.isDigit_of_mem_toDigits hmem) (by decide)
  obtain ⟨hij, hrest⟩ := Text.cut_unique (hdigits i) (hdigits j) h
  exact ⟨Numeral.toDigits_injective hij, hrest⟩

theorem steps_unique (hsteps : ∀ step ∈ steps, step.Plain) (hothers : ∀ step ∈ others, step.Plain)
    (h : steps.flatMap (·.text.toList) = others.flatMap (·.text.toList)) : steps = others := by
  induction steps generalizing others with
  | nil =>
    cases others with
    | nil => rfl
    | cons other others => cases other <;> simp [toList_entry, toList_item] at h
  | cons step steps ih =>
    cases others with
    | nil => cases step <;> simp [toList_entry, toList_item] at h
    | cons other others =>
      obtain ⟨hstep, hrests⟩ := List.forall_mem_cons.mp hsteps
      obtain ⟨hother, htails⟩ := List.forall_mem_cons.mp hothers
      rw [List.flatMap_cons, List.flatMap_cons] at h
      cases step with
      | entry name =>
        cases other with
        | entry other =>
          rw [toList_entry, toList_entry] at h
          obtain ⟨hname, hrest⟩ := lead_unique hstep hother (marked_steps _) (marked_steps _)
            (List.cons.inj h).2
          rw [String.toList_inj.mp hname, ih hrests htails hrest]
        | item j => simp [toList_entry, toList_item] at h
      | item i =>
        cases other with
        | entry other => simp [toList_entry, toList_item] at h
        | item j =>
          rw [toList_item, toList_item] at h
          simp only [List.cons_append, List.append_assoc, List.nil_append, List.cons.injEq,
            true_and] at h
          obtain ⟨rfl, hrest⟩ := index_unique h
          rw [ih hrests htails hrest]

theorem Address.text_injective {a b : Address} (ha : a.Plain) (hb : b.Plain)
    (h : a.text = b.text) : a = b := by
  have hlist := congrArg String.toList h
  rw [Address.text, Address.text, toList_extend, toList_extend] at hlist
  obtain ⟨hname, htail⟩ := lead_unique ha.1 hb.1 (marked_steps _) (marked_steps _) hlist
  cases a
  cases b
  rw [Address.mk.injEq]
  exact ⟨String.toList_inj.mp hname, steps_unique ha.2 hb.2 htail⟩

example : (⟨"items", [.item 1, .entry "sku"]⟩ : Address).text = "items[1].sku" := by decide

end FieldRules.Request
