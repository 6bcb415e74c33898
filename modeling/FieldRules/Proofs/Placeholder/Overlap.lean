import FieldRules.Filter.Compile
import FieldRules.Proofs.Placeholder.Series
import Mathlib.Data.List.Dedup

namespace FieldRules

namespace Numeral

theorem digits_of_longer {i j : Nat} {cs : List Char} (hj : 0 < j) (hne : cs ≠ [])
    (h : Nat.toDigits 10 i = cs ++ Nat.toDigits 10 j) :
    ∃ d, 0 < d ∧ cs = Nat.toDigits 10 d ∧ 10 * d < i := by
  have hi : i = 10 ^ (Nat.toDigits 10 j).length * natOf cs + j := by
    have hv := congrArg natOf h
    rwa [natOf_append, natOf_toDigits, natOf_toDigits] at hv
  have hpos : 0 < i := by omega
  have hhead : cs.head? ≠ some '0' := by
    intro hz
    obtain ⟨rest, rfl⟩ := List.head?_eq_some_iff.mp hz
    exact head_toDigits_ne_zero hpos _ h
  have hall : ∀ c ∈ cs, Text.isDigit c = true := by
    intro c hc
    exact isDigit_of_mem_toDigits (h ▸ List.mem_append_left _ hc)
  have hd : Nat.toDigits 10 (natOf cs) = cs := toDigits_natOf hne hhead hall
  have hlen : 10 ≤ 10 ^ (Nat.toDigits 10 j).length := by
    have hl : 0 < (Nat.toDigits 10 j).length := List.length_pos_of_ne_nil Nat.toDigits_ne_nil
    exact Nat.le_self_pow (by omega) 10
  refine ⟨natOf cs, ?_, hd.symm, ?_⟩
  · rcases Nat.eq_zero_or_pos (natOf cs) with h0 | h0
    · rw [h0, Nat.toDigits_zero] at hd
      rw [← hd] at hhead
      exact absurd rfl hhead
    · exact h0
  · have := Nat.mul_le_mul_right (natOf cs) hlen
    omega

theorem toDigits_ten_mul_add_one {d : Nat} (hd : 0 < d) :
    Nat.toDigits 10 (10 * d + 1) = Nat.toDigits 10 d ++ Nat.toDigits 10 1 :=
  (Nat.toDigits_append_toDigits (by decide) hd (by decide)).symm

end Numeral

namespace ParamNames

theorem toList_numbered (b : String) (i : Nat) :
    (b ++ toString i).toList = b.toList ++ Nat.toDigits 10 i := by
  simp [String.toList_append]

theorem ne_numbered (b : String) (d : Nat) : b ≠ b ++ toString d := by
  intro h
  have hl := congrArg (List.length ∘ String.toList) h
  simp only [Function.comp_apply, toList_numbered, List.length_append] at hl
  have : 0 < (Nat.toDigits 10 d).length := List.length_pos_of_ne_nil Nat.toDigits_ne_nil
  omega

theorem longer_base {b b' : String} {i j : Nat} {cs : List Char} (hj : 0 < j) (hb : b ≠ b')
    (hcs : b'.toList = b.toList ++ cs) (h : Nat.toDigits 10 i = cs ++ Nat.toDigits 10 j) :
    ∃ d, 0 < d ∧ b' = b ++ toString d ∧ 10 * d < i := by
  have hne : cs ≠ [] := by
    rintro rfl
    rw [List.append_nil] at hcs
    exact hb (String.toList_inj.mp hcs.symm)
  obtain ⟨d, hd, rfl, hi⟩ := Numeral.digits_of_longer hj hne h
  refine ⟨d, hd, String.toList_inj.mp ?_, hi⟩
  rw [hcs, toList_numbered]

theorem numbered_eq {b b' : String} {i j : Nat} (hi : 0 < i) (hj : 0 < j) (hb : b ≠ b')
    (h : b ++ toString i = b' ++ toString j) :
    (∃ d, 0 < d ∧ b' = b ++ toString d ∧ 10 * d < i) ∨
      ∃ d, 0 < d ∧ b = b' ++ toString d ∧ 10 * d < j := by
  have hl := congrArg String.toList h
  rw [toList_numbered, toList_numbered] at hl
  rcases List.append_eq_append_iff.mp hl with ⟨cs, hcs, hd⟩ | ⟨cs, hcs, hd⟩
  · exact .inl (longer_base hj hb hcs hd)
  · exact .inr (longer_base hi (Ne.symm hb) hcs hd)

theorem numbered_again (b : String) {d : Nat} (hd : 0 < d) :
    b ++ toString (10 * d + 1) = (b ++ toString d) ++ toString 1 := by
  apply String.toList_inj.mp
  rw [toList_numbered, toList_numbered, toList_numbered, Numeral.toDigits_ten_mul_add_one hd,
    List.append_assoc]

end ParamNames

section Tags

variable {α β : Type} [DecidableEq α]

theorem nodup_of_tags {l : List (α × β)}
    (hown : ∀ a, ((l.filter fun e => e.1 = a).map Prod.snd).Nodup)
    (hone : ∀ e ∈ l, ∀ e' ∈ l, e.2 = e'.2 → e.1 = e'.1) : (l.map Prod.snd).Nodup := by
  induction l with
  | nil => exact List.nodup_nil
  | cons e l ih =>
    have hrest : (l.map Prod.snd).Nodup := by
      refine ih (fun a => ?_) fun x hx y hy =>
        hone x (List.mem_cons_of_mem e hx) y (List.mem_cons_of_mem e hy)
      refine (hown a).sublist (List.Sublist.map _ ?_)
      exact (List.sublist_cons_self e l).filter _
    refine List.nodup_cons.mpr ⟨?_, hrest⟩
    intro hm
    obtain ⟨x, hx, hv⟩ := List.mem_map.mp hm
    have ht : x.1 = e.1 := hone x (List.mem_cons_of_mem e hx) e List.mem_cons_self hv
    have hn := hown e.1
    rw [List.filter_cons_of_pos (by simp), List.map_cons, List.nodup_cons] at hn
    exact hn.1 (List.mem_map.mpr ⟨x, List.mem_filter.mpr ⟨hx, by simpa using ht⟩, hv⟩)

end Tags

namespace Filter

def baseFor (rules : RuleMap) (defaultAlias name : String) : String :=
  ParamNames.baseOf (columnOf name ((Table.get? rules name).getD default).spec defaultAlias)

def tagged (rules : RuleMap) (defaultAlias : String) (conditions : List (String × List Fragment)) :
    List (String × String) :=
  conditions.flatMap fun e => (placeholders e.2).map fun p => (baseFor rules defaultAlias e.1, p)

def drawnFrom (rules : RuleMap) (defaultAlias : String)
    (conditions : List (String × List Fragment)) (base : String) : List String :=
  ((tagged rules defaultAlias conditions).filter fun e => e.1 = base).map Prod.snd

def Overlap (rules : RuleMap) (defaultAlias : String) (c : Compiled) : Prop :=
  ∃ base d, 0 < d ∧ 10 * d < (drawnFrom rules defaultAlias c.conditions base).length ∧
    drawnFrom rules defaultAlias c.conditions (base ++ toString d) ≠ []

def Compiled.fragments (c : Compiled) : List Fragment := c.conditions.flatMap Prod.snd

variable {limit : Numeral.DigitLimit} {rules : RuleMap} {defaultAlias : String}

theorem map_snd_tagged (rules : RuleMap) (defaultAlias : String)
    (conditions : List (String × List Fragment)) :
    (tagged rules defaultAlias conditions).map Prod.snd =
      placeholders (conditions.flatMap Prod.snd) := by
  induction conditions with
  | nil => rfl
  | cons e conditions ih =>
    simp only [tagged, List.flatMap_cons, List.map_append, placeholders_append] at ih ⊢
    rw [ih]
    simp [Function.comp_def]

theorem drawnFrom_cons (name : String) (fs : List Fragment)
    (conditions : List (String × List Fragment)) (base : String) :
    drawnFrom rules defaultAlias ((name, fs) :: conditions) base =
      (if baseFor rules defaultAlias name = base then placeholders fs else []) ++
        drawnFrom rules defaultAlias conditions base := by
  by_cases hb : baseFor rules defaultAlias name = base <;>
    simp [drawnFrom, tagged, List.filter_map, Function.comp_def, hb]

theorem mem_tagged {conditions : List (String × List Fragment)} {e : String × String} :
    e ∈ tagged rules defaultAlias conditions ↔
      e.2 ∈ drawnFrom rules defaultAlias conditions e.1 := by
  constructor
  · intro h
    exact List.mem_map.mpr ⟨e, List.mem_filter.mpr ⟨h, by simp⟩, rfl⟩
  · intro h
    obtain ⟨x, hx, hv⟩ := List.mem_map.mp h
    obtain ⟨hx, ht⟩ := List.mem_filter.mp hx
    have : x = e := Prod.ext (by simpa using ht) hv
    exact this ▸ hx

def left (series : Table ParamNames) (base : String) : ParamNames :=
  (series.get? base).getD { base := base }

theorem left_put (series : Table ParamNames) (base other : String) (names : ParamNames) :
    left (series.put base names) other = if base = other then names else left series other := by
  unfold left
  rw [Table.get?_put]
  split <;> rfl

theorem filterRule?_eq_some {name : String} {v : Value} {r : Rule}
    (h : filterRule? rules name v = some r) : Table.get? rules name = some r := by
  unfold filterRule? at h
  split at h
  · cases h
  · exact (Option.filter_eq_some_iff.mp h).1

theorem left_base {series : Table ParamNames} {name : String} {r : Rule}
    (hget : Table.get? rules name = some r) :
    (series.get? (ParamNames.baseOf (columnOf name r.spec defaultAlias))).getD
        (ParamNames.ofColumn (columnOf name r.spec defaultAlias)) =
      left series (baseFor rules defaultAlias name) := by
  simp [left, baseFor, hget, ParamNames.ofColumn]

theorem compileFrom_cons {name : String} {v : Value} {data : Table Value}
    {series : Table ParamNames} {conditions : List (String × List Fragment)}
    (h : compileFrom limit rules defaultAlias ((name, v) :: data) series = .ok conditions) :
    compileFrom limit rules defaultAlias data series = .ok conditions ∨
      ∃ r column fs names others, filterRule? rules name v = some r ∧
        build limit r column v (left series (baseFor rules defaultAlias name)) = (.ok fs, names) ∧
        compileFrom limit rules defaultAlias data
          (series.put (baseFor rules defaultAlias name) names) = .ok others ∧
        ∀ base, drawnFrom rules defaultAlias conditions base =
          drawnFrom rules defaultAlias ((name, fs) :: others) base := by
  simp only [compileFrom] at h
  split at h
  · exact .inl h
  next r hr =>
    have hget := filterRule?_eq_some hr
    have hbase : ParamNames.baseOf (columnOf name r.spec defaultAlias) =
        baseFor rules defaultAlias name := by
      simp [baseFor, hget]
    rw [left_base hget, hbase] at h
    split at h
    · cases h
    next fs names hbuild =>
      split at h
      next hempty =>
        refine .inr ⟨r, _, fs, names, conditions, hr, hbuild, h, fun base => ?_⟩
        -- a value without fragments draws nothing, so leaving it out changes no list
        rw [drawnFrom_cons, List.isEmpty_iff.mp hempty]
        simp
      next =>
        obtain ⟨others, ho, rfl⟩ := Outcome.map_eq_ok.mp h
        exact .inr ⟨r, _, fs, names, others, hr, hbuild, ho, fun _ => rfl⟩

theorem drawnFrom_compileFrom (hrules : ∀ e ∈ rules, e.2.callback = none) {data : Table Value}
    {series : Table ParamNames} {conditions : List (String × List Fragment)}
    (h : compileFrom limit rules defaultAlias data series = .ok conditions) (base : String) :
    ∃ k, drawnFrom rules defaultAlias conditions base = (left series base).take k := by
  -- the series of a base is left by one field where the next field of that base takes it up
  induction data generalizing series conditions with
  | nil =>
    cases h
    exact ⟨0, rfl⟩
  | cons e data ih =>
    obtain ⟨name, v⟩ := e
    rcases compileFrom_cons h with h | ⟨r, column, fs, names, others, hr, hbuild, hothers, hdrawn⟩
    · exact ih h
    · have hcall : r.callback = none :=
        hrules (name, r) (Table.mem_of_get?_eq_some (filterRule?_eq_some hr))
      obtain ⟨j, hnames, hfs⟩ := draws_build hcall hbuild
      obtain ⟨k, hk⟩ := ih hothers
      rw [hdrawn, drawnFrom_cons, hk, left_put]
      by_cases hb : baseFor rules defaultAlias name = base
      · subst hb
        rw [if_pos rfl, if_pos rfl, hfs, hnames, ← ParamNames.take_add]
        exact ⟨j + k, rfl⟩
      · rw [if_neg hb, if_neg hb]
        exact ⟨k, rfl⟩

theorem mem_drawnFrom {conditions : List (String × List Fragment)} {base p : String}
    (h : ∃ k, drawnFrom rules defaultAlias conditions base = (left [] base).take k) :
    p ∈ drawnFrom rules defaultAlias conditions base ↔
      ∃ i, 0 < i ∧ i ≤ (drawnFrom rules defaultAlias conditions base).length ∧
        p = base ++ toString i := by
  obtain ⟨k, hk⟩ := h
  have hlen : ((left [] base).take k).length = k := by simp [ParamNames.take]
  rw [hk, hlen, ParamNames.mem_take]
  constructor
  · rintro ⟨i, hi, rfl⟩
    exact ⟨1 + i, by omega, by omega, rfl⟩
  · rintro ⟨i, h0, hi, rfl⟩
    refine ⟨i - 1, by omega, ?_⟩
    have : 1 + (i - 1) = i := by omega
    simp [ParamNames.name, left, Table.get?, this]

theorem nodup_placeholders_iff {conditions : List (String × List Fragment)}
    (h : ∀ base, ∃ k, drawnFrom rules defaultAlias conditions base = (left [] base).take k) :
    (placeholders (conditions.flatMap Prod.snd)).Nodup ↔
      ¬Overlap rules defaultAlias ⟨conditions⟩ := by
  rw [← map_snd_tagged rules defaultAlias conditions]
  constructor
  · rintro hn ⟨base, d, hd, hpast, hbound⟩
    have hshort : base ++ toString (10 * d + 1) ∈ drawnFrom rules defaultAlias conditions base :=
      (mem_drawnFrom (h base)).mpr ⟨10 * d + 1, by omega, hpast, rfl⟩
    have hlong : base ++ toString (10 * d + 1) ∈
        drawnFrom rules defaultAlias conditions (base ++ toString d) :=
      (mem_drawnFrom (h (base ++ toString d))).mpr
        ⟨1, by omega, List.length_pos_of_ne_nil hbound, ParamNames.numbered_again base hd⟩
    have heq := List.inj_on_of_nodup_map hn
      (mem_tagged.mpr hshort : (base, _) ∈ tagged rules defaultAlias conditions)
      (mem_tagged.mpr hlong : (base ++ toString d, _) ∈ tagged rules defaultAlias conditions) rfl
    exact ParamNames.ne_numbered base d (congrArg Prod.fst heq)
  · intro hno
    refine nodup_of_tags (fun base => ?_) ?_
    · obtain ⟨k, hk⟩ := h base
      exact (congrArg List.Nodup hk).mpr (ParamNames.nodup_take _ k)
    · rintro ⟨b, p⟩ hp ⟨b', q⟩ hq hpq
      obtain ⟨i, hi, hil, rfl⟩ := (mem_drawnFrom (h b)).mp (mem_tagged.mp hp)
      obtain ⟨j, hj, hjl, rfl⟩ := (mem_drawnFrom (h b')).mp (mem_tagged.mp hq)
      by_contra hb
      rcases ParamNames.numbered_eq hi hj hb hpq with ⟨d, hd, rfl, hlt⟩ | ⟨d, hd, rfl, hlt⟩
      · exact hno ⟨b, d, hd, Nat.lt_of_lt_of_le hlt hil,
          List.ne_nil_of_length_pos (Nat.lt_of_lt_of_le hj hjl)⟩
      · exact hno ⟨b', d, hd, Nat.lt_of_lt_of_le hlt hjl,
          List.ne_nil_of_length_pos (Nat.lt_of_lt_of_le hi hil)⟩

theorem allParams_eq_merge (fs : List Fragment) :
    Fragment.allParams fs = Table.merge [] (fs.flatMap Fragment.params) := by
  unfold Fragment.allParams Table.merge
  rw [List.foldl_flatMap]

theorem names_flatMap_params (fs : List Fragment) :
    Table.names (fs.flatMap Fragment.params) = placeholders fs := by
  unfold Table.names placeholders
  rw [List.map_flatMap]
  rfl

theorem length_allParams_iff (fs : List Fragment) :
    (Fragment.allParams fs).length = (placeholders fs).length ↔ (placeholders fs).Nodup := by
  have hn : (Fragment.allParams fs).names.Nodup := by
    rw [allParams_eq_merge]
    exact Table.nodup_names_merge (by simp [Table.names]) _
  have hmem : ∀ p, p ∈ (Fragment.allParams fs).names ↔ p ∈ (placeholders fs).dedup := by
    intro p
    rw [allParams_eq_merge, Table.mem_names_merge, names_flatMap_params, List.mem_dedup]
    simp [Table.names]
  have hlen : (Fragment.allParams fs).length = (placeholders fs).dedup.length := by
    rw [← List.length_map Prod.fst]
    exact ((List.perm_ext_iff_of_nodup hn (List.nodup_dedup _)).mpr hmem).length_eq
  rw [hlen, ← List.dedup_eq_self]
  constructor
  · intro h
    exact (List.dedup_sublist _).eq_of_length h
  · intro h
    exact congrArg List.length h

theorem get?_allParams {fs : List Fragment} (hn : (placeholders fs).Nodup) {f : Fragment}
    (hf : f ∈ fs) {p : String} {v : Value} (hp : (p, v) ∈ f.params) :
    (Fragment.allParams fs).get? p = some v := by
  rw [allParams_eq_merge]
  rw [← names_flatMap_params] at hn
  exact Table.get?_merge_of_mem hn (List.mem_flatMap.mpr ⟨f, hf, hp⟩)

/-- Every fragment keeps its own bound values exactly when no base overlaps another. -/
theorem compile_keeps_bound_iff (limit : Numeral.DigitLimit) (data : Table Value) (rules : RuleMap)
    (defaultAlias : String) (hrules : ∀ e ∈ rules, e.2.callback = none) (c : Compiled)
    (h : compile limit data rules defaultAlias = .ok c) :
    ((placeholders c.fragments).Nodup ↔ ¬Overlap rules defaultAlias c) ∧
      (c.params.length = (c.fragments.map fun f => f.params.length).sum ↔
        ¬Overlap rules defaultAlias c) ∧
      (¬Overlap rules defaultAlias c →
        ∀ f ∈ c.fragments, ∀ e ∈ f.params, c.params.get? e.1 = some e.2) := by
  obtain ⟨conditions, hc, rfl⟩ := Outcome.map_eq_ok.mp h
  have hdrawn : ∀ base, ∃ k,
      drawnFrom rules defaultAlias conditions base = (left [] base).take k :=
    drawnFrom_compileFrom hrules hc
  have hnodup := nodup_placeholders_iff hdrawn
  have hsum : ((conditions.flatMap Prod.snd).map fun f => f.params.length).sum =
      (placeholders (conditions.flatMap Prod.snd)).length := by
    simp [placeholders, Fragment.names, Table.names, List.length_flatMap]
  refine ⟨hnodup, ?_, ?_⟩
  · change (Fragment.allParams _).length = (List.map _ (conditions.flatMap Prod.snd)).sum ↔ _
    rw [hsum, length_allParams_iff, hnodup]
  · rintro hno f hf ⟨p, v⟩ hp
    exact get?_allParams (hnodup.mpr hno) hf hp

def numberedRules : RuleMap :=
  RuleMap.prepare (some {})
    [("a", { spec := { type := some (.known .integer) } }),
      ("a1", { spec := { type := some (.known .integer) } })]

theorem numberedRules_without_callback : ∀ e ∈ numberedRules, e.2.callback = none := by
  have hall : (numberedRules.all fun e => e.2.callback.isNone) = true := by decide +kernel
  intro e he
  exact Option.isNone_iff_eq_none.mp (List.all_eq_true.mp hall e he)

def roomyData : Table Value := [("a", .str ">1,>2,5"), ("a1", .str "5")]

def crowdedData : Table Value :=
  [("a", .str ">1,>2,>3,>4,>5,>6,>7,>8,>9,>10,>11"), ("a1", .str "5")]

theorem roomy_bounds_kept :
    ∃ c, compile none roomyData numberedRules "t" = .ok c ∧ ¬Overlap numberedRules "t" c ∧
      ∀ f ∈ c.fragments, ∀ e ∈ f.params, c.params.get? e.1 = some e.2 := by
  have hnames : (compile none roomyData numberedRules "t").toOption.map
      (fun c => placeholders c.fragments) = some [":ta1", ":ta2", ":ta3", ":ta11"] := by
    decide +kernel
  cases hc : compile none roomyData numberedRules "t" with
  | error e =>
    rw [hc] at hnames
    cases hnames
  | ok c =>
    have hkeeps := compile_keeps_bound_iff none roomyData numberedRules "t"
      numberedRules_without_callback c hc
    rw [hc] at hnames
    have hlist : placeholders c.fragments = [":ta1", ":ta2", ":ta3", ":ta11"] :=
      Option.some.inj hnames
    have hnodup : (placeholders c.fragments).Nodup := by
      rw [hlist]
      decide
    exact ⟨c, rfl, hkeeps.1.mp hnodup, hkeeps.2.2 (hkeeps.1.mp hnodup)⟩

theorem crowded_bounds_lost :
    (∀ e ∈ numberedRules, e.2.callback = none) ∧
      ∃ c, compile none crowdedData numberedRules "t" = .ok c ∧
        ¬(placeholders c.fragments).Nodup ∧
        c.params.length < (c.fragments.map fun f => f.params.length).sum := by
  refine ⟨numberedRules_without_callback, ?_⟩
  have hread : (compile none crowdedData numberedRules "t").toOption.map
      (fun c => (decide (placeholders c.fragments).Nodup,
        decide (c.params.length < (c.fragments.map fun f => f.params.length).sum))) =
        some (false, true) := by
    decide +kernel
  cases hc : compile none crowdedData numberedRules "t" with
  | error e =>
    rw [hc] at hread
    cases hread
  | ok c =>
    rw [hc] at hread
    obtain ⟨hnodup, hlost⟩ := Prod.mk.inj (Option.some.inj hread)
    exact ⟨c, rfl, of_decide_eq_false hnodup, of_decide_eq_true hlost⟩

end Filter

end FieldRules
