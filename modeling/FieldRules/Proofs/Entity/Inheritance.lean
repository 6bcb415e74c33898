import FieldRules.Entity.World

namespace FieldRules

namespace Table

variable {α : Type}

theorem get?_merge (t : Table α) {u : Table α} (hu : u.names.Nodup) (name : String) :
    (t.merge u).get? name = (u.get? name).or (t.get? name) := by
  cases h : u.get? name with
  | some a => exact get?_merge_of_mem hu (mem_of_get?_eq_some h)
  | none => exact get?_merge_of_not_mem ((get?_eq_none_iff u name).mp h)

theorem get?_foldl_merge {tables : List (Table α)} (h : ∀ u ∈ tables, u.names.Nodup)
    (t : Table α) (name : String) : (tables.foldl merge t).get? name =
      (tables.reverse.findSome? (·.get? name)).or (t.get? name) := by
  induction tables generalizing t with
  | nil => rfl
  | cons u tables ih =>
    obtain ⟨hu, htables⟩ := List.forall_mem_cons.mp h
    rw [List.foldl_cons, ih htables, get?_merge t hu, List.reverse_cons, List.findSome?_append,
      Option.or_assoc]
    simp

end Table

inductive Enrolment where
  | given (accessors : Table Accessor) (h : accessors.names.Nodup)
  | derived (source : String) (labels : Table String)

-- An attribute may be for reading only.
structure Accessor.IsAttribute (a : Accessor) (name : String) : Prop where
  getter : a.getter = readAttribute name
  setter : ∀ setter, a.setter = some setter → setter = writeAttribute name

theorem Accessor.isAttribute_ofAttribute (name : String) (writable : Bool)
    (label : Option String) : (ofAttribute name writable label).IsAttribute name := by
  refine ⟨rfl, fun setter h => ?_⟩
  cases writable with
  | true => exact (Option.some.inj h).symm
  | false => cases h

def Enrolment.IsPlain : Enrolment → Prop
  | .given accessors _ => ∀ entry ∈ accessors, entry.2.IsAttribute entry.1
  | .derived _ _ => True

abbrev History := List (String × Enrolment)

namespace World

variable {w v : World} {history : History} {s : Subject} {cls name : String} {a : Accessor}

def enrolled (w : World) : Enrolment → Except Fault (Table Accessor)
  | .given accessors _ => .ok accessors
  | .derived source labels => fieldAccessors (w.classOf source) labels

def enrol (w : World) (step : String × Enrolment) : World :=
  match w.enrolled step.2 with
  | .ok accessors => w.register step.1 accessors
  | .error _ => w

def enrolAll (w : World) (history : History) : World := history.foldl enrol w

def entered? (w : World) (cls : String) (step : String × Enrolment) : Option (Table Accessor) :=
  if step.1 = cls then (w.enrolled step.2).toOption else none

def latest? (w : World) (history : History) (cls : String) : Option (Table Accessor) :=
  history.reverse.findSome? (w.entered? cls)

/-- The accessor of the first class in a lineage whose latest registration has the name. -/
def nearest? (w : World) (history : History) (lineage : List String) (name : String) :
    Option Accessor :=
  lineage.findSome? fun cls => (w.latest? history cls).bind (·.get? name)

theorem classes_enrol (w : World) (step : String × Enrolment) :
    (w.enrol step).classes = w.classes := by
  unfold enrol
  split <;> rfl

theorem classes_enrolAll (w : World) (history : History) :
    (w.enrolAll history).classes = w.classes := by
  induction history generalizing w with
  | nil => rfl
  | cons step history ih => exact (ih (w.enrol step)).trans (classes_enrol w step)

theorem enrolled_congr (h : v.classes = w.classes) (e : Enrolment) :
    v.enrolled e = w.enrolled e := by
  cases e with
  | given accessors _ => rfl
  | derived source labels => rw [enrolled, enrolled, Store.classOf, Store.classOf, h]

theorem get?_enrol (w : World) (step : String × Enrolment) (cls : String) :
    (w.enrol step).registered.get? cls = (w.entered? cls step).or (w.registered.get? cls) := by
  unfold enrol entered?
  cases w.enrolled step.2 with
  | error e => simp [Except.toOption]
  | ok accessors =>
    by_cases hcls : step.1 = cls <;>
      simp [register, Table.get?_put, hcls, Except.toOption]

theorem get?_enrolAll (w : World) (history : History) (cls : String) :
    (w.enrolAll history).registered.get? cls =
      (w.latest? history cls).or (w.registered.get? cls) := by
  induction history generalizing w with
  | nil => rfl
  | cons step history ih =>
    have hentered : (w.enrol step).entered? = w.entered? := by
      funext cls step'
      rw [entered?, entered?, enrolled_congr (classes_enrol w step)]
    have hlatest : w.latest? (step :: history) cls =
        (w.latest? history cls).or (w.entered? cls step) := by
      simp [latest?, List.findSome?_append]
    rw [enrolAll, List.foldl_cons, ← enrolAll, ih, latest?, hentered, get?_enrol, hlatest,
      Option.or_assoc]
    rfl

/-- A hierarchy of single inheritance, each class declared under one that there is, with any
    entities of it; no accessors are registered yet. -/
inductive Declared : World → Prop
  | initial : Declared .initial
  | subclass {w : World} (h : Declared w) {name : String} {base : Option String}
      (hname : w.classes.has name = false)
      (hbase : w.classes.has (base.getD "object") = true) (own : Option (Table Value)) :
      Declared (w.declareClass name base own)
  | peopled {w : World} (h : Declared w) (entities : Table Entity) :
      Declared { w with entities }

theorem classOf_declareClass (w : World) (name cls : String) (base : Option String)
    (own : Option (Table Value)) : (w.declareClass name base own).classOf cls =
      if name = cls then (w.declareClass name base own).classOf name else w.classOf cls := by
  by_cases h : name = cls
  · simp [h]
  · simp [Store.classOf, declareClass, Table.get?_put, h]

theorem has_declareClass (w : World) (name cls : String) (base : Option String)
    (own : Option (Table Value)) : (w.declareClass name base own).classes.has cls = true ↔
      name = cls ∨ w.classes.has cls = true := by
  by_cases h : name = cls <;> simp [declareClass, Table.has, Table.get?_put, h]

theorem lineage_declareClass (w : World) (name : String) (base : Option String)
    (own : Option (Table Value)) : ((w.declareClass name base own).classOf name).lineage =
      name :: (w.classOf (base.getD "object")).lineage := by
  simp [Store.classOf, declareClass, Table.get?_put]

theorem fields_declareClass (w : World) (name : String) (base : Option String)
    (own : Option (Table Value)) : ((w.declareClass name base own).classOf name).fields =
      match own with
      | none => (w.classOf (base.getD "object")).fields
      | some own => some (((w.classOf (base.getD "object")).fields.getD []).merge own) := by
  cases own <;> simp [Store.classOf, declareClass, Table.get?_put]

theorem Declared.registered_eq_nil (h : Declared w) : w.registered = [] := by
  induction h with
  | initial => rfl
  | subclass _ _ _ _ ih => exact ih
  | peopled _ _ ih => exact ih

theorem Declared.nodup_fields (h : Declared w) (cls : String) :
    ∀ fields, (w.classOf cls).fields = some fields → fields.names.Nodup := by
  induction h generalizing cls with
  | initial =>
    intro fields hfields
    by_cases hcls : "object" = cls <;>
      simp [Store.classOf, World.initial, Table.get?, hcls, Store.root] at hfields
  | @subclass w _ name base _ _ own ih =>
    intro fields hfields
    rw [classOf_declareClass] at hfields
    split at hfields
    next =>
      rw [fields_declareClass] at hfields
      cases own with
      | none => exact ih _ fields hfields
      | some own =>
        obtain rfl := Option.some.inj hfields
        refine Table.nodup_names_merge ?_ own
        cases hparent : (w.classOf (base.getD "object")).fields with
        | none => exact List.nodup_nil
        | some inherited => exact ih _ inherited hparent
    next => exact ih cls fields hfields
  | peopled _ _ ih => exact ih cls

theorem Declared.upward (h : Declared w) (hcls : w.classes.has cls = true) :
    (w.classOf cls).lineage = [cls] ∨ ∃ base, w.classes.has base = true ∧
      (w.classOf cls).lineage = cls :: (w.classOf base).lineage := by
  induction h with
  | initial =>
    have hroot : "object" = cls := by
      simpa [World.initial, Table.has, Table.get?] using hcls
    subst hroot
    exact .inl rfl
  | @subclass w _ name base hname hbase own ih =>
    have hkept : ∀ other, w.classes.has other = true →
        (w.declareClass name base own).classOf other = w.classOf other := by
      intro other hother
      rw [classOf_declareClass, if_neg]
      rintro rfl
      rw [hname] at hother
      cases hother
    rcases (has_declareClass ..).mp hcls with rfl | hcls
    · refine .inr ⟨base.getD "object", (has_declareClass ..).mpr (.inr hbase), ?_⟩
      rw [hkept _ hbase, lineage_declareClass]
    · rw [hkept cls hcls]
      rcases ih hcls with hroot | ⟨other, hother, hlineage⟩
      · exact .inl hroot
      · refine .inr ⟨other, (has_declareClass ..).mpr (.inr hother), ?_⟩
        rw [hkept other hother, hlineage]
  | peopled _ _ ih => exact ih hcls

theorem Declared.nodup_enrolled (h : Declared w) {e : Enrolment} {accessors : Table Accessor}
    (he : w.enrolled e = .ok accessors) : accessors.names.Nodup := by
  cases e with
  | given given hgiven => exact Except.ok.inj he ▸ hgiven
  | derived source labels =>
    rw [enrolled, fieldAccessors] at he
    split at he
    next => cases he
    next fields hfields =>
      cases he
      have hnames : Table.names (fields.names.map fun n =>
          (n, Accessor.ofAttribute n true (labels.get? n))) = fields.names := by
        simp [Table.names]
      rw [hnames]
      exact h.nodup_fields source fields hfields

theorem exists_of_latest? {accessors : Table Accessor}
    (h : w.latest? history cls = some accessors) :
    ∃ e, (cls, e) ∈ history ∧ w.enrolled e = .ok accessors := by
  obtain ⟨step, hstep, hentered⟩ := List.exists_of_findSome?_eq_some h
  unfold entered? at hentered
  split at hentered
  next hcls =>
    subst hcls
    refine ⟨step.2, List.mem_reverse.mp hstep, ?_⟩
    cases henrolled : w.enrolled step.2 with
    | error e => simp [henrolled, Except.toOption] at hentered
    | ok found => simpa [henrolled, Except.toOption] using hentered
  next => cases hentered

theorem accessors_eq_foldl (w : World) (c : EntityClass) : w.accessors c =
    (c.lineage.reverse.map fun cls => (w.registered.get? cls).getD []).foldl Table.merge [] :=
  List.foldl_map.symm

theorem Declared.get?_accessors (h : Declared w) (history : History) (c : EntityClass)
    (name : String) :
    ((w.enrolAll history).accessors c).get? name = w.nearest? history c.lineage name := by
  have hregistered : ∀ cls, (w.enrolAll history).registered.get? cls = w.latest? history cls := by
    intro cls
    rw [get?_enrolAll, h.registered_eq_nil]
    exact Option.or_none
  have hnodup : ∀ u ∈ c.lineage.reverse.map fun cls => (w.latest? history cls).getD [],
      u.names.Nodup := by
    intro u hu
    obtain ⟨cls, -, rfl⟩ := List.mem_map.mp hu
    cases hlatest : w.latest? history cls with
    | none => exact List.nodup_nil
    | some accessors =>
      obtain ⟨e, -, he⟩ := exists_of_latest? hlatest
      exact h.nodup_enrolled he
  simp only [accessors_eq_foldl, hregistered]
  rw [Table.get?_foldl_merge hnodup, ← List.map_reverse, List.reverse_reverse,
    List.findSome?_map, nearest?, Table.get?, Option.or_none]
  refine congrArg (c.lineage.findSome? ·) (funext fun cls => ?_)
  cases hlatest : w.latest? history cls <;> simp [hlatest, Table.get?]

theorem accessor_eq (w : World) (s : Subject) (name : String) :
    (∃ a, (w.accessors (w.subjectClass s)).get? name = some a ∧ w.accessor s name = .ok a) ∨
      ((w.accessors (w.subjectClass s)).get? name = none ∧
        ∃ why, w.accessor s name = .error (.misdeclared why)) := by
  unfold accessor accessorsOf
  dsimp only
  cases h : (w.accessors (w.subjectClass s)).get? name with
  | none =>
    refine .inr ⟨rfl, ?_⟩
    split
    next herror =>
      split at herror
      · exact ⟨_, congrArg Except.error (Except.error.inj herror).symm⟩
      · cases herror
    next all hall =>
      split at hall
      · cases hall
      · cases hall
        rw [h]
        exact ⟨_, rfl⟩
  | some a =>
    refine .inl ⟨a, rfl, ?_⟩
    have hne : (w.accessors (w.subjectClass s)).isEmpty = false := by
      cases haccessors : w.accessors (w.subjectClass s) with
      | nil => rw [haccessors] at h; cases h
      | cons _ _ => rfl
    simp [hne, h]

theorem isAttribute_of_nearest? {lineage : List String} (hplain : ∀ step ∈ history, step.2.IsPlain)
    (h : w.nearest? history lineage name = some a) : a.IsAttribute name := by
  obtain ⟨cls, -, hcls⟩ := List.exists_of_findSome?_eq_some h
  obtain ⟨accessors, hlatest, hget⟩ := Option.bind_eq_some_iff.mp hcls
  obtain ⟨enrolment, hmem, henrolled⟩ := exists_of_latest? hlatest
  have hentry := Table.mem_of_get?_eq_some hget
  cases enrolment with
  | given given hgiven =>
    cases henrolled
    exact hplain _ hmem _ hentry
  | derived source labels =>
    rw [enrolled, fieldAccessors] at henrolled
    split at henrolled
    next => cases henrolled
    next fields hfields =>
      cases henrolled
      obtain ⟨n, -, hn⟩ := List.mem_map.mp hentry
      cases hn
      exact Accessor.isAttribute_ofAttribute _ _ _

/-- The table that a history leaves serves every subject by inheritance, and another enrolment
    replaces the entries of its own class and no others. -/
structure FollowsInheritance (w v : World) (history : History) : Prop where
  upward : ∀ cls, v.classes.has cls = true → (v.classOf cls).lineage = [cls] ∨
    ∃ base, v.classes.has base = true ∧
      (v.classOf cls).lineage = cls :: (v.classOf base).lineage
  found : ∀ s name a, w.nearest? history (v.subjectClass s).lineage name = some a →
    v.accessor s name = .ok a
  missing : ∀ s name, w.nearest? history (v.subjectClass s).lineage name = none →
    ∃ why, v.accessor s name = .error (.misdeclared why) ∧
      v.get s name = .error (.misdeclared why) ∧ v.label s name = .error (.misdeclared why) ∧
      ∀ x, v.set s name x = (.error (.misdeclared why), v)
  replaced : ∀ cls e accessors, v.enrolled e = .ok accessors → ∀ other,
    (v.enrol (cls, e)).registered.get? other =
      if cls = other then some accessors else v.registered.get? other
  fallsBack : ∀ cls base e accessors name, v.enrolled e = .ok accessors →
    (v.classOf cls).lineage = cls :: (v.classOf base).lineage → accessors.get? name = none →
    ((v.enrol (cls, e)).accessors (v.classOf cls)).get? name =
      ((v.enrol (cls, e)).accessors (v.classOf base)).get? name
  unaffected : ∀ cls e c, cls ∉ c.lineage → (v.enrol (cls, e)).accessors c = v.accessors c

theorem enrolAll_concat (w : World) (history : History) (step : String × Enrolment) :
    (w.enrolAll history).enrol step = w.enrolAll (history ++ [step]) := by
  simp [enrolAll]

theorem latest?_concat {e : Enrolment} {accessors : Table Accessor}
    (he : w.enrolled e = .ok accessors) (history : History) (cls : String) :
    w.latest? (history ++ [(cls, e)]) cls = some accessors := by
  simp [latest?, entered?, he, Except.toOption]

theorem accessors_enrol_of_not_mem {c : EntityClass} (w : World) (e : Enrolment)
    (h : cls ∉ c.lineage) : (w.enrol (cls, e)).accessors c = w.accessors c := by
  rw [accessors_eq_foldl, accessors_eq_foldl]
  refine congrArg (List.foldl Table.merge []) (List.map_congr_left fun other hother => ?_)
  have hne : cls ≠ other := fun heq => h (heq ▸ List.mem_reverse.mp hother)
  rw [get?_enrol, entered?, if_neg hne, Option.none_or]

theorem Declared.followsInheritance (h : Declared w) (history : History) :
    FollowsInheritance w (w.enrolAll history) history where
  upward cls hcls := by
    have hclasses := classes_enrolAll w history
    simp only [Store.classOf, hclasses] at hcls ⊢
    exact h.upward hcls
  found s name a ha := by
    rw [← h.get?_accessors] at ha
    rcases accessor_eq (w.enrolAll history) s name with ⟨b, hb, haccessor⟩ | ⟨hnone, -⟩
    · obtain rfl := Option.some.inj (ha.symm.trans hb)
      exact haccessor
    · rw [hnone] at ha
      cases ha
  missing s name hnone := by
    rw [← h.get?_accessors] at hnone
    rcases accessor_eq (w.enrolAll history) s name with ⟨b, hb, -⟩ | ⟨-, why, hwhy⟩
    · rw [hnone] at hb
      cases hb
    · exact ⟨why, hwhy, by rw [get, hwhy], by rw [label, hwhy]; rfl, fun x => by rw [set, hwhy]⟩
  replaced cls e accessors he other := by
    rw [get?_enrol, entered?]
    by_cases hother : cls = other <;> simp [hother, he, Except.toOption]
  fallsBack cls base e accessors name he hlineage hnone := by
    rw [enrolled_congr (classes_enrolAll w history)] at he
    rw [enrolAll_concat, h.get?_accessors, h.get?_accessors, hlineage, nearest?,
      List.findSome?_cons, latest?_concat he, Option.bind_some, hnone]
    rfl
  unaffected cls e c hc := accessors_enrol_of_not_mem (w.enrolAll history) e hc

end World

end FieldRules
