import FieldRules.Proofs.Request.Address
import FieldRules.Proofs.Validation.Visits

namespace FieldRules.Validation

open Request (PlainName Marked)

inductive Spot where
  | site (a : Site)
  | group (id : String)
  deriving DecidableEq, Repr

structure Location where
  sites : List Site := []
  spot : Spot
  deriving DecidableEq, Repr

def groupMark : String := "_choice_group_"

def Spot.text : Spot → String
  | site a => a.text
  | group id => groupMark ++ id

def leadText : List Site → String
  | [] => ""
  | site :: sites => site.text ++ "." ++ leadText sites

def Location.text (loc : Location) : String := leadText loc.sites ++ loc.spot.text

structure FieldName (name : String) : Prop where
  filled : name ≠ ""
  plain : PlainName name
  unlike : ¬groupMark.toList <+: name.toList

instance (name : String) : Decidable (FieldName name) :=
  decidable_of_iff (name ≠ "" ∧ ('.' ∉ name.toList ∧ '[' ∉ name.toList) ∧
      ¬groupMark.toList <+: name.toList)
    ⟨fun h => ⟨h.1, h.2.1, h.2.2⟩, fun h => ⟨h.filled, h.plain, h.unlike⟩⟩

def Spot.Plain : Spot → Prop
  | site a => FieldName a.name
  | group _ => True

structure Location.Plain (loc : Location) : Prop where
  sites : ∀ site ∈ loc.sites, FieldName site.name
  spot : loc.spot.Plain

def TextGroup (spec : RuleSpec) : Prop :=
  ∀ g, spec.choiceGroup = some g → ∃ id, g.groupId = .str id

theorem TextGroup.named {spec : RuleSpec} (h : TextGroup spec) : NamedGroup spec :=
  fun g hg => .inl (h g hg)

inductive WellNamed : RuleMap → Prop
  | intro {rules : RuleMap} : (Table.names rules).Nodup → (∀ e ∈ rules, FieldName e.1) →
      (∀ e ∈ rules, TextGroup e.2.spec) → (∀ e ∈ rules, WellNamed e.2.nestedRules) →
        WellNamed rules

variable {cs ds rest tail : List Char} {a b : Site} {name id : String} {s : Setting}
  {t u w : Struct} {site : Site} {sites others : List Site} {spot other : Spot}

theorem wellNamed_nil : WellNamed [] :=
  .intro List.nodup_nil (by simp) (by simp) (by simp)

namespace WellNamed

variable {rules : RuleMap}

theorem nodup (h : WellNamed rules) : (Table.names rules).Nodup := by
  obtain ⟨hnodup, -, -, -⟩ := h
  exact hnodup

theorem fieldNames (h : WellNamed rules) : ∀ e ∈ rules, FieldName e.1 := by
  obtain ⟨-, hnames, -, -⟩ := h
  exact hnames

theorem textGroups (h : WellNamed rules) : ∀ e ∈ rules, TextGroup e.2.spec := by
  obtain ⟨-, -, htext, -⟩ := h
  exact htext

theorem nested (h : WellNamed rules) : ∀ e ∈ rules, WellNamed e.2.nestedRules := by
  obtain ⟨-, -, -, hnested⟩ := h
  exact hnested

theorem namedGroups (h : WellNamed rules) : ∀ e ∈ rules, NamedGroup e.2.spec :=
  fun e he => (h.textGroups e he).named

theorem keys (h : WellNamed rules) :
    ∀ e ∈ rules, ∀ g, e.2.spec.choiceGroup = some g → g.groupId.isKey = true :=
  fun e he g hg => (h.namedGroups e he g hg).isKey

end WellNamed

theorem toList_groupMark : groupMark.toList =
    ['_', 'c', 'h', 'o', 'i', 'c', 'e', '_', 'g', 'r', 'o', 'u', 'p', '_'] := by
  decide

theorem toList_site (site : Site) : site.text.toList = site.name.toList ++
    site.index.elim [] fun i => '[' :: (Nat.toDigits 10 i ++ [']']) := by
  obtain ⟨name, index⟩ := site
  cases index with
  | none => simp [Site.text]
  | some i => simp [Site.text, indexed, String.toList_append]

def Dotted (cs : List Char) : Prop := ∀ c ∈ cs.head?, c = '.'

theorem dotted_nil : Dotted [] := by simp [Dotted]

theorem dotted_cons (cs : List Char) : Dotted ('.' :: cs) := by simp [Dotted]

theorem marked_of_dotted (h : Dotted cs) (index : Option Nat) :
    Marked ((index.elim [] fun i => '[' :: (Nat.toDigits 10 i ++ [']'])) ++ cs) := by
  cases index with
  | some i => simp [Marked, Request.isMark]
  | none =>
    intro c hc
    rw [h c hc]
    rfl

theorem site_unique (ha : PlainName a.name) (hb : PlainName b.name) (hrest : Dotted rest)
    (htail : Dotted tail) (h : a.text.toList ++ rest = b.text.toList ++ tail) :
    a = b ∧ rest = tail := by
  rw [toList_site, toList_site, List.append_assoc, List.append_assoc] at h
  obtain ⟨hname, hafter⟩ := Request.lead_unique ha hb (marked_of_dotted hrest a.index)
    (marked_of_dotted htail b.index) h
  obtain ⟨name, i⟩ := a
  obtain ⟨other, j⟩ := b
  obtain rfl : name = other := String.toList_inj.mp hname
  cases i with
  | none =>
    cases j with
    | none => exact ⟨rfl, hafter⟩
    | some j =>
      obtain rfl : rest = _ := hafter
      exact absurd (hrest _ rfl) (by decide)
  | some i =>
    cases j with
    | none =>
      obtain rfl : _ = tail := hafter
      exact absurd (htail _ rfl) (by decide)
    | some j =>
      simp only [Option.elim, List.cons_append, List.append_assoc, List.nil_append,
        List.cons.injEq, true_and] at hafter
      obtain ⟨rfl, htail⟩ := Request.index_unique hafter
      exact ⟨rfl, htail⟩

theorem group_ne_site (ha : FieldName a.name) (hrest : Dotted rest) (id : List Char) :
    groupMark.toList ++ id ≠ a.text.toList ++ rest := by
  intro h
  have hmark : ∀ c ∈ groupMark.toList, (!Request.isMark c) = true := by
    rw [toList_groupMark]
    exact List.all_eq_true.mp rfl
  have htake := congrArg (List.takeWhile fun c => !Request.isMark c) h
  rw [toList_site, List.append_assoc,
    Request.takeWhile_lead ha.plain (marked_of_dotted hrest a.index),
    List.takeWhile_append_of_pos hmark] at htake
  exact ha.unlike (htake ▸ List.prefix_append _ _)

theorem toList_leadText_cons (site : Site) (sites : List Site) (rest : List Char) :
    (leadText (site :: sites)).toList ++ rest =
      site.text.toList ++ '.' :: ((leadText sites).toList ++ rest) := by
  simp [leadText, String.toList_append]

theorem spot_unique (hspot : spot.Plain) (hother : other.Plain) (h : spot.text = other.text) :
    spot = other := by
  have hlist := congrArg String.toList h
  cases spot with
  | site a =>
    cases other with
    | site b =>
      have hnil : a.text.toList ++ [] = b.text.toList ++ [] := congrArg (· ++ []) hlist
      obtain ⟨rfl, -⟩ := site_unique hspot.plain hother.plain dotted_nil dotted_nil hnil
      rfl
    | group id =>
      rw [Spot.text, Spot.text, String.toList_append, ← List.append_nil a.text.toList] at hlist
      exact absurd hlist.symm (group_ne_site hspot dotted_nil id.toList)
  | group id =>
    cases other with
    | site b =>
      rw [Spot.text, Spot.text, String.toList_append, ← List.append_nil b.text.toList] at hlist
      exact absurd hlist (group_ne_site hother dotted_nil id.toList)
    | group other =>
      rw [Spot.text, Spot.text, String.toList_append, String.toList_append] at hlist
      rw [String.toList_inj.mp (List.append_cancel_left hlist)]

theorem spot_ne_below (hspot : spot.Plain) (hb : FieldName b.name) (cs : List Char) :
    spot.text.toList ≠ b.text.toList ++ '.' :: cs := by
  intro h
  cases spot with
  | site a =>
    have hnil : a.text.toList ++ [] = b.text.toList ++ '.' :: cs := (List.append_nil _).trans h
    cases (site_unique hspot.plain hb.plain dotted_nil (dotted_cons cs) hnil).2
  | group id =>
    rw [Spot.text, String.toList_append] at h
    exact group_ne_site hb (dotted_cons cs) id.toList h

theorem way_unique (hsites : ∀ site ∈ sites, FieldName site.name)
    (hothers : ∀ site ∈ others, FieldName site.name) (hspot : spot.Plain) (hother : other.Plain)
    (h : (leadText sites).toList ++ spot.text.toList =
      (leadText others).toList ++ other.text.toList) : sites = others ∧ spot = other := by
  induction sites generalizing others with
  | nil =>
    cases others with
    | nil => exact ⟨rfl, spot_unique hspot hother (String.toList_inj.mp h)⟩
    | cons b others =>
      rw [toList_leadText_cons] at h
      exact absurd h (spot_ne_below hspot (hothers b List.mem_cons_self) _)
  | cons a sites ih =>
    obtain ⟨ha, hsites⟩ := List.forall_mem_cons.mp hsites
    rw [toList_leadText_cons] at h
    cases others with
    | nil => exact absurd h.symm (spot_ne_below hother ha _)
    | cons b others =>
      obtain ⟨hb, hrests⟩ := List.forall_mem_cons.mp hothers
      rw [toList_leadText_cons] at h
      obtain ⟨rfl, hrest⟩ := site_unique ha.plain hb.plain (dotted_cons _) (dotted_cons _) h
      obtain ⟨rfl, rfl⟩ := ih hsites hrests (List.cons.inj hrest).2
      exact ⟨rfl, rfl⟩

theorem Location.text_unique {loc loc' : Location} (hloc : loc.Plain) (hloc' : loc'.Plain)
    (h : loc.text = loc'.text) : loc = loc' := by
  have hlist := congrArg String.toList h
  simp only [Location.text, String.toList_append] at hlist
  obtain ⟨hsites, hspot⟩ := way_unique hloc.sites hloc'.sites hloc.spot hloc'.spot hlist
  cases loc
  cases loc'
  rw [Location.mk.injEq]
  exact ⟨hsites, hspot⟩

theorem FieldName.text_ne_empty (h : FieldName site.name) : site.text ≠ "" := by
  intro htext
  have hlist := congrArg String.toList htext
  rw [toList_site] at hlist
  exact h.filled (String.toList_inj.mp (List.append_eq_nil_iff.mp hlist).1)

theorem Enters.fieldName (hnamed : WellNamed t.rules) (h : Enters s t site u) :
    FieldName site.name := by
  cases h with
  | intro he => exact hnamed.fieldNames _ he

theorem Enters.wellNamed (hnamed : WellNamed t.rules) (h : Enters s t site u) :
    WellNamed u.rules := by
  cases h with
  | intro he => exact hnamed.nested _ he

theorem Enters.base_eq (hnamed : WellNamed t.rules) (h : Enters s t site u) :
    u.base = t.base ++ site.text ++ "." := by
  have hfilled : t.base ++ site.text ≠ "" := by
    intro hempty
    have hlist := congrArg String.toList hempty
    rw [String.toList_append] at hlist
    exact (h.fieldName hnamed).text_ne_empty
      (String.toList_inj.mp (List.append_eq_nil_iff.mp hlist).2)
  cases h with
  | intro => exact if_neg hfilled

theorem Visits.wellNamed (hnamed : WellNamed t.rules) (h : Visits s t sites w) :
    WellNamed w.rules := by
  induction h with
  | here => exact hnamed
  | part henters _ ih => exact ih (henters.wellNamed hnamed)

theorem Visits.fieldNames (hnamed : WellNamed t.rules) (h : Visits s t sites w) :
    ∀ site ∈ sites, FieldName site.name := by
  induction h with
  | here => exact fun _ hsite => nomatch hsite
  | part henters _ ih =>
    exact List.forall_mem_cons.mpr
      ⟨henters.fieldName hnamed, ih (henters.wellNamed hnamed)⟩

theorem Visits.base_eq (hnamed : WellNamed t.rules) (h : Visits s t sites w) :
    w.base = t.base ++ leadText sites := by
  induction h with
  | here => rw [leadText, String.append_empty]
  | part henters _ ih =>
    rw [ih (henters.wellNamed hnamed), henters.base_eq hnamed, leadText, String.append_assoc,
      String.append_assoc, String.append_assoc]

end FieldRules.Validation
