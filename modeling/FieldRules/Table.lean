namespace FieldRules

abbrev Table (α : Type) := List (String × α)

namespace Table

variable {α : Type}

def get? : Table α → String → Option α
  | [], _ => none
  | (k, a) :: t, name => if k = name then some a else get? t name

def has (t : Table α) (name : String) : Bool := (t.get? name).isSome

def put : Table α → String → α → Table α
  | [], name, a => [(name, a)]
  | (k, b) :: t, name, a => if k = name then (k, a) :: t else (k, b) :: put t name a

def merge (t u : Table α) : Table α := u.foldl (fun t e => t.put e.1 e.2) t

def ofEntries (entries : List (String × α)) : Table α := merge [] entries

def names (t : Table α) : List String := t.map Prod.fst

def putNew (t : Table α) (name : String) (a : α) : Table α :=
  if t.has name then t else t.put name a

theorem get?_put (t : Table α) (name other : String) (a : α) :
    (t.put name a).get? other = if name = other then some a else t.get? other := by
  induction t with
  | nil => simp [put, get?]
  | cons e t ih =>
    obtain ⟨k, b⟩ := e
    by_cases hk : k = name
    · subst hk
      by_cases ho : k = other <;> simp [put, get?, ho]
    · by_cases ho : k = other
      · subst ho
        simp [put, get?, hk, Ne.symm hk]
      · simp [put, get?, hk, ho, ih]

theorem mem_names_put (t : Table α) (name other : String) (a : α) :
    other ∈ (t.put name a).names ↔ other = name ∨ other ∈ t.names := by
  induction t with
  | nil => simp [put, names]
  | cons e t ih =>
    obtain ⟨k, b⟩ := e
    simp only [names] at ih
    by_cases hk : k = name
    · subst hk
      simp [put, names]
    · simp [put, names, hk, ih, or_left_comm]

theorem nodup_names_put {t : Table α} (h : t.names.Nodup) (name : String) (a : α) :
    (t.put name a).names.Nodup := by
  induction t with
  | nil => simp [put, names]
  | cons e t ih =>
    obtain ⟨k, b⟩ := e
    have hn : ¬k ∈ names t ∧ (names t).Nodup := by simpa [names] using h
    by_cases hk : k = name
    · simpa [put, names, hk] using h
    · have hmem : ¬k ∈ (put t name a).names := by
        rw [mem_names_put]
        simp [hk, hn.1]
      have : (k :: (put t name a).names).Nodup := List.nodup_cons.2 ⟨hmem, ih hn.2⟩
      simpa [put, names, hk] using this

theorem get?_eq_none_iff (t : Table α) (name : String) : t.get? name = none ↔ name ∉ t.names := by
  induction t with
  | nil => simp [get?, names]
  | cons e t ih =>
    obtain ⟨k, b⟩ := e
    simp only [names] at ih
    by_cases hk : k = name
    · simp [get?, names, hk]
    · simp [get?, names, hk, Ne.symm hk, ih]

theorem mem_of_get?_eq_some {t : Table α} {name : String} {a : α} (h : t.get? name = some a) :
    (name, a) ∈ t := by
  induction t with
  | nil => simp [get?] at h
  | cons e t ih =>
    obtain ⟨k, b⟩ := e
    by_cases hk : k = name
    · simp_all [get?]
    · simp only [get?, hk, if_false] at h
      exact List.mem_cons_of_mem _ (ih h)

theorem get?_of_mem {t : Table α} (hn : t.names.Nodup) {name : String} {a : α}
    (h : (name, a) ∈ t) : t.get? name = some a := by
  induction t with
  | nil => simp at h
  | cons e t ih =>
    obtain ⟨k, b⟩ := e
    have hn' : k ∉ names t ∧ (names t).Nodup := by simpa [names] using hn
    rcases List.mem_cons.mp h with he | hm
    · obtain ⟨rfl, rfl⟩ := Prod.mk.inj he
      simp [get?]
    · have hk : k ≠ name := by
        rintro rfl
        exact hn'.1 (List.mem_map_of_mem hm)
      simpa [get?, hk] using ih hn'.2 hm

theorem get?_of_perm {t u : Table α} (hn : t.names.Nodup) (h : t.Perm u) (name : String) :
    t.get? name = u.get? name := by
  have hu : u.names.Nodup := (h.map Prod.fst).nodup_iff.mp hn
  refine Option.ext fun a => ⟨fun ha => ?_, fun ha => ?_⟩
  · exact get?_of_mem hu (h.mem_iff.mp (mem_of_get?_eq_some ha))
  · exact get?_of_mem hn (h.mem_iff.mpr (mem_of_get?_eq_some ha))

theorem mem_names_merge (t u : Table α) (name : String) :
    name ∈ (t.merge u).names ↔ name ∈ t.names ∨ name ∈ u.names := by
  induction u generalizing t with
  | nil => simp [merge, names]
  | cons e u ih =>
    have := ih (t.put e.1 e.2)
    rw [mem_names_put] at this
    simpa [merge, names, or_assoc, or_left_comm] using this

theorem nodup_names_merge {t : Table α} (h : t.names.Nodup) (u : Table α) :
    (t.merge u).names.Nodup := by
  induction u generalizing t with
  | nil => exact h
  | cons e u ih => exact ih (nodup_names_put h e.1 e.2)

theorem get?_merge_of_not_mem {t u : Table α} {name : String} (h : name ∉ u.names) :
    (t.merge u).get? name = t.get? name := by
  induction u generalizing t with
  | nil => rfl
  | cons e u ih =>
    have hu : name ≠ e.1 ∧ name ∉ names u := by simpa [names] using h
    have := @ih (t.put e.1 e.2) hu.2
    rwa [get?_put, if_neg (Ne.symm hu.1)] at this

theorem get?_merge_of_mem {t u : Table α} (hn : u.names.Nodup) {name : String} {a : α}
    (h : (name, a) ∈ u) : (t.merge u).get? name = some a := by
  induction u generalizing t with
  | nil => simp at h
  | cons e u ih =>
    have hu : e.1 ∉ names u ∧ (names u).Nodup := by simpa [names] using hn
    rcases List.mem_cons.mp h with rfl | hm
    · have := get?_merge_of_not_mem (t := t.put name a) hu.1
      rwa [get?_put, if_pos rfl] at this
    · exact ih hu.2 hm

theorem get?_merge_cases {t u : Table α} {name : String} {a : α}
    (h : (t.merge u).get? name = some a) : (name, a) ∈ u ∨ t.get? name = some a := by
  induction u generalizing t with
  | nil => exact .inr h
  | cons e u ih =>
    rcases ih h with hu | hp
    · exact .inl (List.mem_cons_of_mem e hu)
    · rw [get?_put] at hp
      split at hp
      next he =>
        obtain rfl := Option.some.inj hp
        exact .inl (he ▸ List.mem_cons_self)
      next => exact .inr hp

theorem put_of_not_mem {t : Table α} {name : String} (h : name ∉ t.names) (a : α) :
    t.put name a = t ++ [(name, a)] := by
  induction t with
  | nil => rfl
  | cons e t ih =>
    obtain ⟨k, b⟩ := e
    have hk : name ≠ k ∧ name ∉ names t := by simpa [names] using h
    simp [put, Ne.symm hk.1, ih hk.2]

theorem merge_of_disjoint {t u : Table α} (hn : u.names.Nodup)
    (h : ∀ name ∈ u.names, name ∉ t.names) : t.merge u = t ++ u := by
  induction u generalizing t with
  | nil => simp [merge]
  | cons e u ih =>
    have hu : e.1 ∉ names u ∧ (names u).Nodup := by simpa [names] using hn
    have he : e.1 ∉ t.names := h e.1 (by simp [names])
    have hrest : ∀ name ∈ names u, name ∉ names (t ++ [e]) := by
      intro name hname
      have ht : name ∉ t.names := h name (List.mem_cons_of_mem e.1 hname)
      have hne : name ≠ e.1 := fun hne => hu.1 (hne ▸ hname)
      simpa [names, hne] using ht
    have hmerge := ih hu.2 hrest
    simp only [merge, List.foldl_cons, put_of_not_mem he]
    simpa [merge] using hmerge

theorem put_of_get? {t : Table α} {name : String} {a : α} (h : t.get? name = some a) :
    t.put name a = t := by
  induction t with
  | nil => cases h
  | cons e t ih =>
    obtain ⟨k, b⟩ := e
    by_cases hk : k = name
    · simp_all [put, get?]
    · simp only [get?, hk, if_false] at h
      simp [put, hk, ih h]

theorem names_prefix_put (t : Table α) (name : String) (a : α) :
    t.names <+: (t.put name a).names := by
  induction t with
  | nil => exact List.nil_prefix
  | cons e t ih =>
    obtain ⟨k, b⟩ := e
    by_cases hk : k = name
    · simp [put, names, hk]
    · simpa [put, names, hk] using ih

theorem names_prefix_merge (t u : Table α) : t.names <+: (t.merge u).names := by
  induction u generalizing t with
  | nil => exact List.prefix_refl _
  | cons e u ih => exact (names_prefix_put t e.1 e.2).trans (ih (t.put e.1 e.2))

theorem merge_append (t u w : Table α) : t.merge (u ++ w) = (t.merge u).merge w :=
  List.foldl_append

theorem merge_cons_of_not_mem {t u : Table α} {k : String} (h : k ∉ u.names) (a : α) :
    merge ((k, a) :: t) u = (k, a) :: t.merge u := by
  induction u generalizing t with
  | nil => rfl
  | cons e u ih =>
    have hu : k ≠ e.1 ∧ k ∉ names u := by simpa [names] using h
    have hput : put ((k, a) :: t) e.1 e.2 = (k, a) :: t.put e.1 e.2 := if_neg hu.1
    simp only [merge, List.foldl_cons, hput]
    exact ih hu.2

theorem merge_of_names_eq {t u : Table α} (hn : u.names.Nodup) (h : t.names = u.names) :
    t.merge u = u := by
  induction u generalizing t with
  | nil =>
    obtain rfl : t = [] := List.map_eq_nil_iff.mp h
    rfl
  | cons e u ih =>
    have hu : e.1 ∉ names u ∧ (names u).Nodup := by simpa [names] using hn
    cases t with
    | nil => cases h
    | cons f t =>
      obtain ⟨hf, ht⟩ := List.cons.inj (show f.1 :: names t = e.1 :: names u from h)
      have hput : put (f :: t) e.1 e.2 = e :: t := by
        rw [put, if_pos hf, hf]
      simp only [merge, List.foldl_cons, hput]
      exact (merge_cons_of_not_mem hu.1 e.2).trans (congrArg _ (ih hu.2 ht))

theorem merge_of_leading_names {t u : Table α} (hn : u.names.Nodup) (h : t.names <+: u.names) :
    t.merge u = u := by
  obtain ⟨rest, hrest⟩ := h
  obtain ⟨low, high, rfl, hlow, hhigh⟩ := List.map_eq_append_iff.mp hrest.symm
  have hnames : names low ++ names high = names (low ++ high) := List.map_append.symm
  rw [← hnames, List.nodup_append] at hn
  rw [merge_append, merge_of_names_eq hn.1 hlow.symm]
  refine merge_of_disjoint hn.2.1 ?_
  intro name hh hl
  exact hn.2.2 name hl name hh rfl

theorem merge_merge {t : Table α} (hn : t.names.Nodup) (u : Table α) :
    t.merge (t.merge u) = t.merge u :=
  merge_of_leading_names (nodup_names_merge hn u) (names_prefix_merge t u)

theorem names_put_of_mem {t : Table α} {name : String} (h : name ∈ t.names) (a : α) :
    (t.put name a).names = t.names := by
  induction t with
  | nil => cases h
  | cons e t ih =>
    obtain ⟨k, b⟩ := e
    by_cases hk : k = name
    · simp [put, names, hk]
    · have ht : name ∈ names t := by
        have hor : name = k ∨ name ∈ names t := by simpa [names] using h
        exact hor.resolve_left (Ne.symm hk)
      simpa [put, names, hk] using ih ht

theorem names_merge_of_subset {t u : Table α} (h : ∀ e ∈ u, e.1 ∈ t.names) :
    (t.merge u).names = t.names := by
  induction u generalizing t with
  | nil => rfl
  | cons e u ih =>
    have hput := names_put_of_mem (h e List.mem_cons_self) e.2
    have hrest : ∀ f ∈ u, f.1 ∈ (t.put e.1 e.2).names := by
      intro f hf
      rw [hput]
      exact h f (List.mem_cons_of_mem e hf)
    exact (ih hrest).trans hput

theorem ext_of_names {t u : Table α} (hn : t.names.Nodup) (hnames : t.names = u.names)
    (h : ∀ name ∈ t.names, t.get? name = u.get? name) : t = u := by
  induction t generalizing u with
  | nil => exact (List.map_eq_nil_iff.mp hnames.symm).symm
  | cons e t ih =>
    obtain ⟨k, a⟩ := e
    cases u with
    | nil => cases hnames
    | cons f u =>
      obtain ⟨l, b⟩ := f
      obtain ⟨rfl, htail⟩ := List.cons.inj (show k :: names t = l :: names u from hnames)
      have hn' : k ∉ names t ∧ (names t).Nodup := by simpa [names] using hn
      have hhead : some a = some b := by simpa [get?] using h k List.mem_cons_self
      have hrest : ∀ name ∈ names t, get? t name = get? u name := by
        intro name hname
        have hk : k ≠ name := fun heq => hn'.1 (heq ▸ hname)
        simpa [get?, hk] using h name (List.mem_cons_of_mem k hname)
      rw [Option.some.inj hhead, ih hn'.2 htail hrest]

theorem put_put (t : Table α) (name : String) (a b : α) :
    (t.put name a).put name b = t.put name b := by
  induction t with
  | nil => simp [put]
  | cons e t ih =>
    obtain ⟨k, c⟩ := e
    by_cases hk : k = name <;> simp [put, hk, ih]

theorem put_comm_of_mem {t : Table α} {name other : String} (h : name ∈ t.names)
    (hne : other ≠ name) (a b : α) :
    (t.put other b).put name a = (t.put name a).put other b := by
  induction t with
  | nil => cases h
  | cons e t ih =>
    obtain ⟨k, c⟩ := e
    by_cases hk : k = name
    · subst hk
      simp [put, hne.symm]
    · have ht : name ∈ names t := by
        have hor : name = k ∨ name ∈ names t := by simpa [names] using h
        exact hor.resolve_left (Ne.symm hk)
      by_cases ho : k = other <;> simp [put, hk, ho, ih ht, hne]

theorem put_merge_of_mem {t u : Table α} {name : String} (h : name ∈ t.names)
    (hu : name ∉ u.names) (a : α) : (t.merge u).put name a = (t.put name a).merge u := by
  induction u generalizing t with
  | nil => rfl
  | cons e u ih =>
    have hu' : name ≠ e.1 ∧ name ∉ names u := by simpa [names] using hu
    have hmem : name ∈ (t.put e.1 e.2).names := (mem_names_put ..).mpr (.inr h)
    simp only [merge, List.foldl_cons, ← put_comm_of_mem h hu'.1.symm]
    exact ih hmem hu'.2

theorem merge_put {u : Table α} (hu : u.names.Nodup) (t : Table α) (name : String) (a : α) :
    t.merge (u.put name a) = (t.merge u).put name a := by
  induction u generalizing t with
  | nil => rfl
  | cons e u ih =>
    obtain ⟨k, b⟩ := e
    have hu' : k ∉ names u ∧ (names u).Nodup := by simpa [names] using hu
    by_cases hk : k = name
    · subst hk
      have hmem : k ∈ (t.put k b).names := (mem_names_put ..).mpr (.inl rfl)
      have hput : put ((k, b) :: u) k a = (k, a) :: u := if_pos rfl
      rw [hput]
      simp only [merge, List.foldl_cons]
      have hlater := put_merge_of_mem hmem hu'.1 a
      rw [put_put] at hlater
      exact hlater.symm
    · have hput : put ((k, b) :: u) name a = (k, b) :: put u name a := if_neg hk
      rw [hput]
      exact ih hu'.2 (t.put k b)

theorem merge_assoc (t : Table α) {u : Table α} (hu : u.names.Nodup) (w : Table α) :
    t.merge (u.merge w) = (t.merge u).merge w := by
  induction w generalizing u with
  | nil => rfl
  | cons e w ih =>
    have hput := ih (nodup_names_put hu e.1 e.2)
    rw [merge_put hu] at hput
    exact hput

theorem merge_ofEntries (t : Table α) (entries : List (String × α)) :
    t.merge (ofEntries entries) = t.merge entries :=
  merge_assoc t (by simp [names]) entries

end Table

end FieldRules
