import FieldRules.Favorite.Entity
import FieldRules.Proofs.Favorite.Sent
import FieldRules.Proofs.Pattern.Opening
import FieldRules.Proofs.Validation.Reused
import Mathlib.Data.List.Nodup

namespace FieldRules.Favorite

open Validation

def written (attributes : Table Value) : World :=
  { world with entities := [("favorite", ⟨className, attributes⟩)] }

def IsAddress (s : String) : Prop :=
  "http://".toList <+: s.toList ∨ "https://".toList <+: s.toList

instance (s : String) : Decidable (IsAddress s) :=
  inferInstanceAs (Decidable (_ ∨ _))

variable {attributes entries data : Table Value} {name label codes : String} {v : Value}
  {most : Nat} {pattern : Option String} {limit : Numeral.DigitLimit} {bags : Request.Bags}
  {isNew : Bool}

theorem world_eq_written : world = written fields := by
  rfl

theorem accessor_written (h : name ∈ fields.names) (attributes : Table Value) :
    ∃ label, (written attributes).accessor subject name = .ok (.ofAttribute name true label) := by
  simp only [fields, Table.names, List.map_cons, List.map_nil, List.mem_cons, List.not_mem_nil,
    or_false] at h
  rcases h with rfl | rfl | rfl | rfl | rfl | rfl <;> exact ⟨_, rfl⟩

theorem set_written (h : name ∈ fields.names) (attributes : Table Value) (v : Value) :
    (written attributes).set subject name v = (.ok (), written (attributes.put name v)) := by
  obtain ⟨label, haccessor⟩ := accessor_written h attributes
  rw [World.set, haccessor]
  rfl

theorem assign_written (h : ∀ e ∈ entries, e.1 ∈ fields.names) (attributes : Table Value) :
    (written attributes).assign subject entries =
      (.ok (), written (attributes.merge entries)) := by
  induction entries generalizing attributes with
  | nil => rfl
  | cons e entries ih =>
    obtain ⟨name, v⟩ := e
    rw [World.assign, set_written (h (name, v) List.mem_cons_self)]
    exact ih (fun e he => h e (List.mem_cons_of_mem _ he)) _

theorem get_written (h : name ∈ fields.names) (hv : attributes.get? name = some v) :
    (written attributes).get subject name = .ok v := by
  obtain ⟨label, haccessor⟩ := accessor_written h attributes
  have hattribute : (written attributes).attribute? subject name = some v := by
    have hentity : ((written attributes).entities.get? "favorite").bind
        (·.attributes.get? name) = some v := hv
    unfold Store.attribute? subject
    dsimp only
    rw [hentity]
  rw [World.get, haccessor]
  dsimp only [Accessor.ofAttribute, Accessor.readAttribute]
  rw [hattribute]

def attributesOf (data : Table Value) : Table Value :=
  fields.merge (Table.ofEntries (data.map fun e => (entityField e.1, e.2)))

theorem entries_picked
    (hdata : Request.extract limit bags (saveRules isNew codes) "body" = .ok data) :
    ∀ e ∈ Table.ofEntries (data.map fun e => (entityField e.1, e.2)), e.1 ∈ fields.names := by
  have hfields : ∀ name ∈ savedNames, entityField name ∈ fields.names := by
    decide
  intro e he
  have hmem : e.1 ∈ Table.names (Table.ofEntries (data.map fun e => (entityField e.1, e.2))) :=
    List.mem_map.mpr ⟨e, he, rfl⟩
  rw [Table.ofEntries, Table.mem_names_merge] at hmem
  rcases hmem with hmem | hmem
  · cases hmem
  · obtain ⟨f, hf, hname⟩ := List.mem_map.mp hmem
    obtain ⟨d, hd, rfl⟩ := List.mem_map.mp hf
    rw [← hname]
    exact hfields d.1 (mem_savedNames_of_picked hdata (List.mem_map.mpr ⟨d, hd, rfl⟩))

theorem ofRequest_picked
    (hdata : Request.extract limit bags (saveRules isNew codes) "body" = .ok data) :
    ofRequest data = .ok (written (attributesOf data)) := by
  rw [ofRequest, world_eq_written, assign_written (entries_picked hdata)]
  rfl

theorem names_attributesOf
    (hdata : Request.extract limit bags (saveRules isNew codes) "body" = .ok data) :
    (attributesOf data).names = fields.names :=
  Table.names_merge_of_subset (entries_picked hdata)

theorem get?_attributesOf
    (hdata : Request.extract limit bags (saveRules isNew codes) "body" = .ok data) (name : String)
    (hname : name ∈ savedNames) : (attributesOf data).get? (entityField name) =
      (data.get? name).or (fields.get? (entityField name)) := by
  -- No two fields of a request are written to one field, so each picked value stays.
  have hinj : ∀ m ∈ savedNames, ∀ n ∈ savedNames, entityField m = entityField n → m = n := by
    decide
  have hsaved : ∀ n ∈ data.names, n ∈ savedNames := fun _ => mem_savedNames_of_picked hdata
  have hrenamed : Table.names (data.map fun e => (entityField e.1, e.2)) =
      data.names.map entityField := by
    simp [Table.names]
  have hnodup : (Table.names (data.map fun e => (entityField e.1, e.2))).Nodup := by
    rw [hrenamed]
    exact List.Nodup.map_on (fun m hm n hn => hinj m (hsaved m hm) n (hsaved n hn))
      (nodup_names_picked hdata)
  have hentries : Table.ofEntries (data.map fun e => (entityField e.1, e.2)) =
      data.map fun e => (entityField e.1, e.2) := by
    rw [Table.ofEntries, Table.merge_of_disjoint hnodup (fun _ _ => List.not_mem_nil),
      List.nil_append]
  rw [attributesOf, hentries]
  cases hget : data.get? name with
  | some v =>
    rw [Option.some_or]
    exact Table.get?_merge_of_mem hnodup
      (List.mem_map.mpr ⟨_, Table.mem_of_get?_eq_some hget, rfl⟩)
  | none =>
    rw [Option.none_or]
    refine Table.get?_merge_of_not_mem ?_
    rw [hrenamed, List.mem_map]
    rintro ⟨m, hm, heq⟩
    obtain rfl := hinj m (hsaved m hm) name hname heq
    exact (Table.get?_eq_none_iff _ _).mp hget hm

def under (label : String) (r : Rule) : Rule :=
  { r with spec := { r.spec with label := some label } }

def shownRules : RuleMap := [
  ("name", under "Name" (boundedText 255 none)),
  ("html_url", under "URL" (boundedText 2048 (some "^https?://"))),
  ("visibility", under "Visibility" storedVisibility)]

theorem entityFields_written {stored address visibility : Value}
    (hname : attributes.get? "name" = some stored)
    (haddress : attributes.get? "html_url" = some address)
    (hvisibility : attributes.get? "visibility" = some visibility) :
    Validator.entityFields (written attributes) subject entityRules =
      .ok ([("name", stored), ("html_url", address), ("visibility", visibility)], shownRules) := by
  have hget₁ := get_written (by decide) hname
  have hget₂ := get_written (by decide) haddress
  have hget₃ := get_written (by decide) hvisibility
  simp only [entityRules, Validator.entityFields, hget₁, hget₂, hget₃]
  rfl

section Address

open Pattern

def addressPattern : Pattern :=
  seq textStart (seq (letter 'h') (seq (letter 't') (seq (letter 't') (seq (letter 'p')
    (seq (repeated .greedy (letter 's') 0 (some 1))
      (seq (letter ':') (seq (letter '/') (letter '/'))))))))

theorem read_address : Pattern.read "^https?://".toList = .ok addressPattern := by
  rfl

theorem found_address_iff {cs : List Char} : found addressPattern cs = true ↔
    "http://".toList <+: cs ∨ "https://".toList <+: cs := by
  rw [addressPattern, found_textStart_iff]
  simp only [opens_letter_iff, opens_optional_iff, opens_last_iff, Spot.first, Spot.step]
  constructor
  · rintro ⟨_, rfl, _, rfl, _, rfl, _, rfl, ⟨_, rfl, _, rfl, _, rfl⟩ |
      ⟨_, rfl, _, rfl, _, rfl, _, rfl⟩⟩
    · exact .inl ⟨_, rfl⟩
    · exact .inr ⟨_, rfl⟩
  · rintro (⟨rest, rfl⟩ | ⟨rest, rfl⟩)
    · exact ⟨_, rfl, _, rfl, _, rfl, _, rfl, .inl ⟨_, rfl, _, rfl, _, rfl⟩⟩
    · exact ⟨_, rfl, _, rfl, _, rfl, _, rfl, .inr ⟨_, rfl, _, rfl, _, rfl, _, rfl⟩⟩

theorem search_address (s : String) :
    (Regex.ofText "^https?://").search s = .ok (decide (IsAddress s)) := by
  have hsearch : (Regex.ofText "^https?://").search s = .ok (found addressPattern s.toList) :=
    congrArg (Except.map fun p => found p s.toList) read_address
  rw [hsearch]
  exact congrArg _ (Bool.eq_iff_iff.mpr (found_address_iff.trans decide_eq_true_iff.symm))

theorem matches_address_iff {s : String} :
    Matches (.ofText "^https?://") (.str s) ↔ IsAddress s := by
  constructor
  · rintro ⟨⟨⟩, hfound⟩
    rw [search_address, Except.ok.injEq, decide_eq_true_iff] at hfound
    exact hfound
  · intro h
    exact .intro rfl ((search_address s).trans (congrArg _ (decide_eq_true_iff.mpr h)))

end Address

theorem fitting_boundedText
    (hpattern : ∀ s, pattern = some s → ∀ text, ∃ b, (Regex.ofText s).search text = .ok b) :
    Fitting (under label (boundedText most pattern)) where
  type := ⟨.string, rfl⟩
  shape := rfl
  length := .inr ⟨rfl, .inr ⟨.int 1, .int most, rfl, rfl, rfl⟩⟩
  pattern w hw := by
    obtain ⟨s, hs, rfl⟩ := Option.map_eq_some_iff.mp hw
    exact ⟨rfl, hpattern s hs⟩
  required _ := ⟨none, rfl⟩
  custom _ _ _ _ h := by cases h

theorem plain_storedVisibility : Plain (under label storedVisibility) .string :=
  ⟨⟨rfl, rfl, rfl⟩, ⟨rfl, rfl⟩, rfl, rfl, rfl, rfl⟩

theorem fitting_shownRules : ∀ e ∈ shownRules, Fitting e.2 ∧ Alone e.2 := by
  simp only [shownRules, List.forall_mem_cons]
  refine ⟨⟨fitting_boundedText nofun, rfl, rfl⟩, ⟨fitting_boundedText ?_, rfl, rfl⟩, ⟨?_, rfl, rfl⟩,
    nofun⟩
  · rintro s ⟨⟩
    exact fun text => ⟨_, search_address text⟩
  · refine plain_storedVisibility.fitting fun label name data fault h => ?_
    exact isVerdict_of_checkEntityEnum rfl visibilityTexts_ne_nil rfl h

theorem meets_boundedText_iff {t : String} (hget : data.get? name = some (.str t)) (ht : t ≠ "") :
    FieldMeets (under label (boundedText most pattern)) name "" data ↔
      t.length ≤ most ∧ ∀ s, pattern = some s → Matches (.ofText s) (.str t) := by
  have hempty : (Value.str t).isEmpty = false := Request.isEmpty_str_eq_false_iff.mpr ht
  have hlength : Between (.tuple [.int 1, .int most]) (measure false (.str t)) ↔
      t.length ≤ most := by
    have hpos : t.length ≠ 0 := by simpa using ht
    refine between_ints_iff.trans ?_
    omega
  have hdemanding : Undemanding (under label (boundedText most pattern)) := ⟨rfl, rfl, rfl⟩
  rw [hdemanding.fieldMeets_iff_of_optional rfl, hget]
  simp only [Option.some.injEq, forall_eq', hempty, Bool.false_eq_true, false_or]
  constructor
  · intro h
    refine ⟨hlength.mp (h.length _ rfl (.inr (.inl rfl))), ?_⟩
    rintro s rfl
    exact h.pattern _ rfl (.inr rfl)
  · rintro ⟨hmost, hpattern⟩
    refine ⟨.known (.string t), ?_, ?_, ?_, .unchecked rfl⟩
    · rintro (⟨⟨⟩⟩ | ⟨⟨⟩⟩)
    · rintro length ⟨⟩ -
      exact hlength.mpr hmost
    · intro w hw _
      obtain ⟨s, hs, rfl⟩ := Option.map_eq_some_iff.mp hw
      exact hpattern s hs

theorem meets_storedVisibility_iff (hget : data.get? name = some v) :
    FieldMeets (under label storedVisibility) name "" data ↔
      v.isEmpty = true ∨ ∃ s ∈ visibilityTexts, v = .str s := by
  have hpermits : ∀ known s, v = .str s →
      (Permits (under label storedVisibility) known name data ↔ s ∈ visibilityTexts) := by
    rintro known s rfl
    rw [permits_call_iff rfl]
    exact checkEntityEnum_eq_ok_iff rfl visibilityTexts_ne_nil hget
  rw [plain_storedVisibility.fieldMeets_iff_of_optional rfl, hget]
  simp only [Option.some.injEq, forall_eq', plain_storedVisibility.valueMeets_iff]
  refine or_congr_right ⟨?_, ?_⟩
  · rintro ⟨⟨s⟩, hown⟩
    exact ⟨s, (hpermits _ s rfl).mp hown, rfl⟩
  · rintro ⟨s, hs, rfl⟩
    exact ⟨.string s, (hpermits _ s rfl).mpr hs⟩

theorem check_written {address t : String} (ctx : Context) (hcodes : isInternalCode codes = false)
    (hname : attributes.get? "name" = some (.str t)) (ht : t ≠ "")
    (haddress : attributes.get? "html_url" = some (.str address)) (hfilled : address ≠ "")
    (hvisibility : attributes.get? "visibility" = some v) :
    ∃ errors, check ctx (written attributes) codes = .ok errors ∧
      (errors = [] ↔ t.length ≤ 255 ∧ (address.length ≤ 2048 ∧ IsAddress address) ∧
        (v.isEmpty = true ∨ ∃ s ∈ visibilityTexts, v = .str s)) ∧
      (errors.any fun e => e.2.isInternal) = false := by
  have hcheck : check ctx (written attributes) codes =
      (Validator.validate { context := ctx, codes } (.map [("name", .str t),
        ("html_url", .str address), ("visibility", v)]) (some shownRules) "").1 := by
    have hfields := entityFields_written hname haddress hvisibility
    have hne : entityRules ≠ [] := List.cons_ne_nil _ _
    exact congrArg Prod.fst
      (Validator.validateEntity_of_fields hne hfields { context := ctx } codes)
  obtain ⟨errors, herrors, hiff, hinternal⟩ := Validator.errors_of_fitting { context := ctx, codes }
    hcodes fitting_shownRules (.map [("name", .str t), ("html_url", .str address),
      ("visibility", v)])
  refine ⟨errors, hcheck.trans herrors, hiff.trans ?_, hinternal⟩
  simp only [shownRules, List.forall_mem_cons]
  rw [meets_boundedText_iff rfl ht, meets_boundedText_iff rfl hfilled,
    meets_storedVisibility_iff rfl]
  constructor
  · rintro ⟨⟨hlength, -⟩, ⟨hsize, haddress⟩, hvisible, -⟩
    exact ⟨hlength, ⟨hsize, matches_address_iff.mp (haddress _ rfl)⟩, hvisible⟩
  · rintro ⟨hlength, ⟨hsize, haddress⟩, hvisible⟩
    refine ⟨⟨hlength, nofun⟩, ⟨hsize, ?_⟩, hvisible, nofun⟩
    rintro s ⟨⟩
    exact matches_address_iff.mpr haddress

end FieldRules.Favorite
