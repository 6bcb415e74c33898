import Mathlib.Data.List.Nodup
import FieldRules.Proofs.Validation.Groups
import FieldRules.Proofs.Validation.Location

namespace FieldRules.Validation

inductive GroupFails (s : Setting) (t : Struct) : Spot → FieldError → Prop
  | clash {front rest : RuleMap} {e : String × Rule} {g : ChoiceGroup} {o : Value} :
      t.rules = front ++ e :: rest → t.data.has e.1 = true → e.2.spec.choiceGroup = some g →
        Chosen t.data.has g.groupId (specs front) o → o.same g.optionId = false →
          GroupFails s t (.site ⟨e.1, none⟩) (otherOption s.context
            (s.code "validator.multiple_options_chosen") (t.base ++ e.1) e.2.spec g)
  | unchosen {id : String} {g : ChoiceGroup} :
      Declares (.str id) (specs t.rules) g → g.required = true →
        (∀ e ∈ specs t.rules, ¬Member t.data.has (.str id) e) →
          GroupFails s t (.group id) (FieldError.make s.context (t.base ++ groupMark ++ id)
            (s.code "validator.no_option_chosen") [("group", .str id)])

variable {present : String → Bool} {key o o' : Value} {ctx : Context} {code base name path : String}
  {data : Table Value} {spec : RuleSpec} {specs front rest : List (String × RuleSpec)}
  {c c₁ c₂ : Choices} {clash : Bool} {errors : List FieldError} {err : FieldError} {g : ChoiceGroup}
  {s : Setting} {t : Struct} {spot : Spot}

theorem Chosen.unique (h : Chosen present key specs o) (h' : Chosen present key specs o') :
    o = o' := by
  induction h with
  | here hp hg hid => exact (chosen_cons_of_member hp hg hid).mp h'
  | later hno _ ih => exact ih ((chosen_cons_of_not_member hno).mp h')

theorem Chosen.append (h : Chosen present key front o) (rest : List (String × RuleSpec)) :
    Chosen present key (front ++ rest) o := by
  induction h with
  | here hp hg hid => exact .here hp hg hid
  | later hno _ ih => exact .later hno ih

theorem Declares.mem (h : Declares key specs g) :
    ∃ e ∈ specs, e.2.choiceGroup = some g ∧ g.groupId = key := by
  induction h with
  | here hg hid => exact ⟨_, List.mem_cons_self, hg, hid⟩
  | later _ _ ih =>
    obtain ⟨e, he, hg, hid⟩ := ih
    exact ⟨e, List.mem_cons_of_mem _ he, hg, hid⟩

theorem ChoiceStep.mem_clashErrors_iff (h : ChoiceStep data name spec c c₁ clash) :
    err ∈ clashErrors ctx code path spec clash ↔
      ∃ g o, spec.choiceGroup = some g ∧ data.has name = true ∧ c.option? g.groupId = some o ∧
        o.same g.optionId = false ∧ err = otherOption ctx code path spec g := by
  unfold clashErrors
  cases h with
  | ungrouped hg => simp [hg]
  | absent hg habsent => simp [hg, habsent]
  | first hg hhas hnone => simp [hg, hnone]
  | again hg hhas ho => simp [hg, hhas, ho]

theorem mem_choices_iff (hnamed : ∀ e ∈ specs, NamedGroup e.2)
    (h : choices ctx code base data specs c = (errors, .ok c₂)) : err ∈ errors ↔
      ∃ front rest e g o, specs = front ++ e :: rest ∧ data.has e.1 = true ∧
        e.2.choiceGroup = some g ∧ (c.option? g.groupId = some o ∨
          (c.option? g.groupId = none ∧ Chosen data.has g.groupId front o)) ∧
            o.same g.optionId = false ∧ err = otherOption ctx code (base ++ e.1) e.2 g := by
  induction specs generalizing c errors with
  | nil =>
    cases h
    simp
  | cons e specs ih =>
    obtain ⟨hhead, hnamed⟩ := List.forall_mem_cons.mp hnamed
    obtain ⟨c₁, clash, errors', hstep, hrest, rfl⟩ := choices_step h
    have ih := ih hnamed hrest
    rw [List.mem_append, hstep.mem_clashErrors_iff, ih]
    constructor
    · rintro (⟨g, o, hg, hhas, ho, hsame, rfl⟩ |
        ⟨front, rest, f, g, o, rfl, hhas, hg, ho, hsame, rfl⟩)
      · exact ⟨[], specs, e, g, o, rfl, hhas, hg, .inl ho, hsame, rfl⟩
      · have hkey : g.groupId.IsName := hnamed f (by simp) g hg
        exact ⟨e :: front, rest, f, g, o, rfl, hhas, hg, (hstep.option?_iff hhead hkey).mp ho,
          hsame, rfl⟩
    · rintro ⟨front, rest, f, g, o, hsplit, hhas, hg, ho, hsame, rfl⟩
      cases front with
      | nil =>
        obtain ⟨rfl, rfl⟩ := List.cons.inj hsplit
        rcases ho with ho | ⟨-, ho⟩
        · exact .inl ⟨g, o, hg, hhas, ho, hsame, rfl⟩
        · cases ho
      | cons e' front =>
        obtain ⟨rfl, rfl⟩ := List.cons.inj hsplit
        have hkey : g.groupId.IsName := hnamed f (by simp) g hg
        exact .inr ⟨front, rest, f, g, o, rfl, hhas, hg, (hstep.option?_iff hhead hkey).mpr ho,
          hsame, rfl⟩

theorem paths_choices (h : choices ctx code base data specs c = (errors, .ok c₂)) :
    (errors.map FieldError.path).Sublist (specs.map fun e => base ++ e.1) := by
  induction specs generalizing c errors with
  | nil =>
    cases h
    exact List.Sublist.refl _
  | cons e specs ih =>
    obtain ⟨c₁, clash, errors', hstep, hrest, rfl⟩ := choices_step h
    have hhead : ((clashErrors ctx code (base ++ e.1) e.2 clash).map FieldError.path).Sublist
        [base ++ e.1] := by
      unfold clashErrors
      split
      · split
        · exact List.Sublist.refl _
        · exact List.nil_sublist _
      · exact List.nil_sublist _
    rw [List.map_append]
    exact hhead.append (ih hrest)

theorem Choices.nodup_note (hc : NamedChoices c) (hg : g.groupId.IsName)
    (h : (c.required.map Prod.fst).Nodup) : ((c.note g).required.map Prod.fst).Nodup := by
  unfold note
  split
  · exact h
  next hnone =>
    have hnew : g.groupId ∉ c.required.map Prod.fst := by
      intro hmem
      obtain ⟨⟨k, b⟩, he, rfl⟩ := List.mem_map.mp hmem
      exact hnone ((lookupSame_isSome_iff hc hg).mpr ⟨b, he⟩)
    rw [List.map_append, List.map_singleton]
    exact List.nodup_append.mpr ⟨h, List.nodup_singleton _, by
      rintro k hk k' hk' rfl
      obtain rfl := List.mem_singleton.mp hk'
      exact hnew hk⟩

theorem nodup_required_choices (hnamed : ∀ e ∈ specs, NamedGroup e.2) (hc : NamedChoices c)
    (hnodup : (c.required.map Prod.fst).Nodup)
    (h : choices ctx code base data specs c = (errors, .ok c₂)) :
    (c₂.required.map Prod.fst).Nodup := by
  induction specs generalizing c errors with
  | nil =>
    cases h
    exact hnodup
  | cons e specs ih =>
    obtain ⟨hhead, hnamed⟩ := List.forall_mem_cons.mp hnamed
    obtain ⟨c₁, clash, errors', hstep, hrest, -⟩ := choices_step h
    rcases hstep.required_eq with ⟨-, heq⟩ | ⟨g, hg, heq⟩
    · exact ih hnamed (fun e he => hc e (heq ▸ he)) (heq ▸ hnodup) hrest
    · have hkey : g.groupId.IsName := hhead g hg
      exact ih hnamed (fun e he => hc.note hkey e (heq ▸ he))
        (heq ▸ Choices.nodup_note hc hkey hnodup) hrest

theorem mem_unchosen_iff : err ∈ unchosen ctx code base c ↔
    ∃ key, (key, true) ∈ c.required ∧ c.option? key = none ∧
      err = FieldError.make ctx (base ++ groupMark ++ key.text) code [("group", key)] := by
  rw [unchosen, List.mem_filterMap]
  constructor
  · rintro ⟨⟨key, required⟩, hkey, herr⟩
    dsimp only at herr
    split at herr
    next hopen =>
      obtain ⟨rfl, hnone⟩ := Bool.and_eq_true_iff.mp hopen
      exact ⟨key, hkey, Option.isNone_iff_eq_none.mp hnone, (Option.some.inj herr).symm⟩
    · cases herr
  · rintro ⟨key, hkey, hnone, rfl⟩
    refine ⟨_, hkey, ?_⟩
    dsimp only
    rw [hnone]
    rfl

theorem paths_unchosen : ((unchosen ctx code base c).map FieldError.path).Sublist
    (c.required.map fun e => base ++ groupMark ++ e.1.text) := by
  rw [unchosen]
  induction c.required with
  | nil => exact List.Sublist.refl _
  | cons e required ih =>
    rw [List.filterMap_cons]
    split
    · exact ih.cons _
    next err herr =>
      dsimp only at herr
      split at herr
      · obtain rfl := Option.some.inj herr
        exact ih.cons_cons _
      · cases herr

theorem mem_unchosen_choices_iff {code' : String} (hnamed : ∀ e ∈ specs, NamedGroup e.2)
    (h : choices ctx code base data specs {} = (errors, .ok c)) :
    err ∈ unchosen ctx code' base c ↔ ∃ key g, Declares key specs g ∧ g.required = true ∧
      (∀ e ∈ specs, ¬Member data.has key e) ∧
        err = FieldError.make ctx (base ++ groupMark ++ key.text) code' [("group", key)] := by
  have hempty : NamedChoices {} := by simp [NamedChoices]
  have hdeclared : ∀ key, (key, true) ∈ c.required ↔
      ∃ g, Declares key specs g ∧ g.required = true := by
    intro key
    rw [mem_required_choices hnamed hempty h]
    simp
  have hopen : ∀ key : Value, key.IsName →
      (c.option? key = none ↔ ∀ e ∈ specs, ¬Member data.has key e) := by
    intro key hkey
    rw [← not_iff_not, ← ne_eq, Option.ne_none_iff_exists', exists_option_iff hnamed h hkey]
    push Not
    rfl
  rw [mem_unchosen_iff]
  constructor
  · rintro ⟨key, hkey, hnone, rfl⟩
    obtain ⟨g, hdeclares, hrequired⟩ := (hdeclared key).mp hkey
    exact ⟨key, g, hdeclares, hrequired, (hopen key (hdeclares.isName hnamed)).mp hnone, rfl⟩
  · rintro ⟨key, g, hdeclares, hrequired, hno, rfl⟩
    exact ⟨key, (hdeclared key).mpr ⟨g, hdeclares, hrequired⟩,
      (hopen key (hdeclares.isName hnamed)).mpr hno, rfl⟩

namespace Struct

theorem settled_of_named (hnamed : ∀ e ∈ t.rules, NamedGroup e.2.spec) :
    ∃ c, t.settled? = some c :=
  exists_settled_iff.mpr fun e he g hg => (hnamed e he g hg).isKey

theorem settled_of_wellNamed (hnamed : WellNamed t.rules) : ∃ c, t.settled? = some c :=
  settled_of_named hnamed.namedGroups

theorem admits_iff_takesPart (hnamed : ∀ e ∈ t.rules, NamedGroup e.2.spec)
    (hspec : NamedGroup spec) :
    t.Admits spec ↔ TakesPart t.data.has (Validation.specs t.rules) spec := by
  obtain ⟨c, hc⟩ := settled_of_named hnamed
  obtain ⟨errors, hchoices⟩ := t.choices_of_settled hc {} ""
  have hnamed : ∀ e ∈ Validation.specs t.rules, NamedGroup e.2 := List.forall_mem_map.mpr hnamed
  rw [← admits_iff hnamed hchoices hspec, admits_iff_of_settled hc]

theorem exists_choices (hnamed : ∀ e ∈ t.rules, NamedGroup e.2.spec) (s : Setting) :
    ∃ errors c, choices s.context (s.code "validator.multiple_options_chosen") t.base t.data
      (Validation.specs t.rules) {} = (errors, .ok c) ∧
        t.groupErrors s =
          errors ++ unchosen s.context (s.code "validator.no_option_chosen") t.base c := by
  obtain ⟨c, hc⟩ := settled_of_named hnamed
  obtain ⟨errors, hchoices⟩ := t.choices_of_settled hc s.context
    (s.code "validator.multiple_options_chosen")
  exact ⟨errors, c, hchoices, groupErrors_of_choices hchoices⟩

theorem mem_groupErrors_iff (htext : ∀ e ∈ t.rules, TextGroup e.2.spec) :
    err ∈ t.groupErrors s ↔ ∃ spot, GroupFails s t spot err := by
  have hnamed : ∀ e ∈ t.rules, NamedGroup e.2.spec := fun e he => (htext e he).named
  have hspecs : ∀ e ∈ Validation.specs t.rules, NamedGroup e.2 := List.forall_mem_map.mpr hnamed
  obtain ⟨errors, c, hchoices, hgroups⟩ := exists_choices hnamed s
  rw [hgroups, List.mem_append, mem_choices_iff hspecs hchoices,
    mem_unchosen_choices_iff hspecs hchoices]
  constructor
  · rintro (⟨front, rest, f, g, o, hsplit, hhas, hg, ho, hsame, rfl⟩ |
      ⟨key, g, hdeclares, hrequired, hno, rfl⟩)
    · obtain ⟨front, after, hrules, rfl, hafter⟩ := List.map_eq_append_iff.mp hsplit
      obtain ⟨e, rest, rfl, rfl, rfl⟩ := List.map_eq_cons_iff.mp hafter
      have hchosen : Chosen t.data.has g.groupId (Validation.specs front) o := by
        rcases ho with ho | ⟨-, ho⟩
        · cases ho
        · exact ho
      exact ⟨_, .clash hrules hhas hg hchosen hsame⟩
    · obtain ⟨f, hf, hg, rfl⟩ := hdeclares.mem
      obtain ⟨e, he, rfl⟩ := List.mem_map.mp hf
      obtain ⟨id, hid⟩ := htext e he g hg
      rw [hid] at hdeclares hno ⊢
      exact ⟨_, .unchosen hdeclares hrequired hno⟩
  · rintro ⟨spot, hfails⟩
    cases hfails with
    | @clash front rest e g o hrules hhas hg ho hsame =>
      refine .inl ⟨Validation.specs front, Validation.specs rest, (e.1, e.2.spec), g, o, ?_, hhas,
        hg, .inr ⟨rfl, ho⟩, hsame, rfl⟩
      rw [hrules]
      exact List.map_append
    | @unchosen id g hdeclares hrequired hno => exact .inr ⟨_, g, hdeclares, hrequired, hno, rfl⟩

end Struct

theorem GroupFails.path_eq (h : GroupFails s t spot err) : err.path = t.base ++ spot.text := by
  cases h with
  | clash =>
    rw [Spot.text, Site.text, Option.elim, String.append_empty]
    rfl
  | unchosen =>
    rw [Spot.text, ← String.append_assoc]
    rfl

theorem GroupFails.plain (hnames : ∀ e ∈ t.rules, FieldName e.1) (h : GroupFails s t spot err) :
    spot.Plain := by
  cases h with
  | clash hrules => exact hnames _ (by simp [hrules])
  | unchosen => exact trivial

theorem GroupFails.not_admits {a : Site} (htext : ∀ e ∈ t.rules, TextGroup e.2.spec)
    (h : GroupFails s t (.site a) err) :
    a.index = none ∧ ∃ e ∈ t.rules, e.1 = a.name ∧ ¬t.Admits e.2.spec := by
  cases h with
  | @clash front rest e g o hrules hhas hg ho hsame =>
    have he : e ∈ t.rules := by simp [hrules]
    refine ⟨rfl, e, he, rfl, ?_⟩
    rw [Struct.admits_iff_takesPart (fun e he => (htext e he).named) (htext e he).named]
    intro htakes
    obtain ⟨o', ho', hsame'⟩ := htakes g hg
    have hwhole : Chosen t.data.has g.groupId (Validation.specs t.rules) o := by
      rw [hrules, Validation.specs, List.map_append]
      exact ho.append _
    rw [hwhole.unique ho', hsame'] at hsame
    cases hsame

theorem text_of_required (htext : ∀ e ∈ t.rules, TextGroup e.2.spec)
    (h : choices ctx code base data (Validation.specs t.rules) {} = (errors, .ok c)) :
    ∀ key ∈ c.required.map Prod.fst, ∃ id, key = .str id := by
  have hnamed : ∀ e ∈ Validation.specs t.rules, NamedGroup e.2 :=
    List.forall_mem_map.mpr fun e he => (htext e he).named
  have hempty : NamedChoices {} := by simp [NamedChoices]
  intro key hkey
  obtain ⟨e, he, rfl⟩ := List.mem_map.mp hkey
  rcases (mem_required_choices hnamed hempty h).mp he with hno | ⟨-, g, hdeclares, -⟩
  · cases hno
  · obtain ⟨f, hf, hg, hid⟩ := hdeclares.mem
    obtain ⟨r, hr, rfl⟩ := List.mem_map.mp hf
    exact hid ▸ htext r hr g hg

theorem Struct.nodup_groupErrors (hnamed : WellNamed t.rules) :
    ((t.groupErrors s).map FieldError.path).Nodup := by
  have hspecs : ∀ e ∈ Validation.specs t.rules, NamedGroup e.2 :=
    List.forall_mem_map.mpr hnamed.namedGroups
  have hempty : NamedChoices {} := by simp [NamedChoices]
  obtain ⟨errors, c, hchoices, hgroups⟩ := exists_choices hnamed.namedGroups s
  have hkeys := text_of_required hnamed.textGroups hchoices
  have hmembers : ((Validation.specs t.rules).map fun e => t.base ++ e.1).Nodup := by
    have hpaths := hnamed.nodup.map (f := fun name => t.base ++ name) fun _ _ heq =>
      (String.append_right_inj _).mp heq
    rw [Table.names, List.map_map] at hpaths
    rwa [Validation.specs, List.map_map]
  have hmissing : (c.required.map fun e => t.base ++ groupMark ++ e.1.text).Nodup := by
    have hfirst := nodup_required_choices hspecs hempty List.nodup_nil hchoices
    have hpaths := hfirst.map_on (f := fun key => t.base ++ groupMark ++ key.text) (by
      intro key hkey key' hkey' heq
      obtain ⟨id, rfl⟩ := hkeys key hkey
      obtain ⟨id', rfl⟩ := hkeys key' hkey'
      exact congrArg _ ((String.append_right_inj _).mp heq))
    rwa [List.map_map] at hpaths
  rw [hgroups, List.map_append, List.nodup_append]
  refine ⟨hmembers.sublist (paths_choices hchoices), hmissing.sublist paths_unchosen, ?_⟩
  rintro p hp p' hp' rfl
  obtain ⟨f, hf, hmember⟩ := List.mem_map.mp ((paths_choices hchoices).subset hp)
  obtain ⟨r, hr, rfl⟩ := List.mem_map.mp hf
  obtain ⟨k, -, hgroup⟩ := List.mem_map.mp (paths_unchosen.subset hp')
  rw [← hmember, String.append_assoc, String.append_right_inj] at hgroup
  have hlist := congrArg String.toList hgroup
  rw [String.toList_append] at hlist
  exact (hnamed.fieldNames r hr).unlike ⟨_, hlist⟩

end FieldRules.Validation
