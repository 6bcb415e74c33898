import FieldRules.Proofs.Favorite.Written
import FieldRules.Proofs.Json.Nesting
import FieldRules.Proofs.Text.Replacing
import FieldRules.Service.Http

namespace FieldRules.Service

open Favorite Request Validation

structure Acceptable (query : List (String × String)) (id : Option String)
    (body : Table Value) : Prop extends Sendable body where
  query : query = []
  declared : ∀ e ∈ body, e.1 ∈ sentNames
  identity : ∀ i, id = some i → Numeral.isInt i.toList = true

structure Savable (query : List (String × String)) (id : Option String)
    (body : Table Value) : Prop extends Acceptable query id body where
  nameFits : ∀ s, body.get? "name" = some (.str s) → s.length ≤ 255
  addressFits : ∀ s, body.get? "htmlUrl" = some (.str s) → s.length ≤ 2048 ∧ IsAddress s

inductive Unanswerable (body : Table Value) : Prop
  | active {v : Value} : body.get? "active" = some v → v.isEmpty = true → Unanswerable body
  | visibility {v : Value} : body.get? "visibility" = some v → v.isEmpty = true → Unanswerable body
  | owner {v : Value} : body.get? "owner" = some v → v.isEmpty = true → v.isArray = true →
      Unanswerable body

-- The values that a field of a record surely takes, and those that it surely does not take.
inductive ModelField.Takes (f : ModelField) : Value → Prop
  | null : f.nullable = true → f.Takes .null
  | text {s : String} : f.type = .string → f.Takes (.str s)
  | integer {n : Int} : f.type = .integer → f.Takes (.int n)
  | truth {b : Bool} : f.type = .boolean → f.Takes (.bool b)

inductive ModelField.Refuses (f : ModelField) : Value → Prop
  | null : f.nullable = false → f.Refuses .null
  | array {v : Value} : f.type ≠ .array → v.isArray = true → f.Refuses v

/-- What the service relies on: requests that save reach their route, a record whose fields take
    the values that they are given is sent as it is, one with a field that does not cannot be
    built, and a route that fails is answered with an internal error. -/
structure Web.Documented (web : Web) : Prop where
  inserts : web.route "POST" "/favorites" = .inl .insert
  updates {id : String} : id ≠ "" → '/' ∉ id.toList →
    web.route "PUT" ("/favorites/" ++ id) = .inl (.update id)
  takes {model : List ModelField} {fields : Table Value} : fields.names.Nodup →
    fields.names = model.map ModelField.name →
    (∀ f ∈ model, ∃ v, fields.get? f.name = some v ∧ f.Takes v) →
    web.build model fields = some fields
  refuses {model : List ModelField} {fields : Table Value} {f : ModelField} {v : Value} :
    f ∈ model → fields.get? f.name = some v → f.Refuses v → web.build model fields = none
  fails : web.failed.status = 500

variable {web : Web} {c : Config} {r : HttpRequest} {id : Option String} {body data : Table Value}
  {f : ModelField} {fault : Fault} {v w : Value}

theorem takes_text (htype : f.type = .string) (h : v.isEmpty = true ∨ BaseType.string.Has v)
    (hempty : v.isEmpty = true → f.nullable = true ∧ v.isArray = false) :
    f.Takes (withoutEmptyText v) := by
  cases hv : v.isEmpty with
  | true =>
    obtain ⟨hnullable, harray⟩ := hempty hv
    cases v with
    | null => exact .null hnullable
    | str s =>
      obtain rfl : s = "" := by simpa [Value.isEmpty] using hv
      exact .null hnullable
    | list => cases harray
    | tuple => cases harray
    | _ => cases hv
  | false =>
    rw [withoutEmptyText_of_not_isEmpty hv]
    obtain ⟨s⟩ := h.resolve_left (by simp [hv])
    exact .text htype

theorem refuses_empty (htype : f.type ≠ .array) (h : v.isEmpty = true)
    (hnull : f.nullable = true → v.isArray = true) : f.Refuses (withoutEmptyText v) := by
  cases hnullable : f.nullable with
  | true =>
    have harray := hnull hnullable
    cases v with
    | list => exact .array htype rfl
    | tuple => exact .array htype rfl
    | _ => cases harray
  | false =>
    cases v with
    | null => exact .null hnullable
    | str s =>
      obtain rfl : s = "" := by simpa [Value.isEmpty] using h
      exact .null hnullable
    | list => exact .array htype rfl
    | tuple => exact .array htype rfl
    | _ => cases h

theorem coerce_empty (limit : Numeral.DigitLimit) (spec : RuleSpec) (h : v.isEmpty = true) :
    coerce limit spec (withoutEmptyText v) = .ok (withoutEmptyText v) := by
  cases v with
  | str s =>
    obtain rfl : s = "" := by simpa [Value.isEmpty] using h
    rfl
  | _ => rfl

def savingBags (r : HttpRequest) (id : Option String) (body : Table Value) : Bags :=
  r.bags body (match id with
    | some id => [("id", .str id)]
    | none => [])

theorem query_eq_nil_iff : bag (savingBags r id body) "query" = [] ↔ r.query = [] := by
  have hbag : bag (savingBags r id body) "query" =
      Table.ofEntries (r.query.map fun e => (e.1, .str e.2)) := rfl
  rw [hbag]
  constructor
  · intro h
    rw [List.eq_nil_iff_forall_not_mem]
    intro e he
    have hmem : e.1 ∈
        Table.names (Table.ofEntries (r.query.map fun e => (e.1, Value.str e.2))) := by
      rw [Table.ofEntries, Table.mem_names_merge]
      exact .inr (List.mem_map.mpr ⟨_, List.mem_map.mpr ⟨e, he, rfl⟩, rfl⟩)
    rw [h] at hmem
    cases hmem
  · intro h
    rw [h]
    rfl

theorem identity_sent {i : String} (hid : id = some i) :
    (bag (savingBags r id body) "attributes").get? "id" = some (.str i) := by
  subst hid
  rfl

section Picked

variable (hfits : ∀ i, id = some i → Numeral.fits Numeral.digitLimit i.toList = true)

include hfits

theorem exists_picked : ∃ data, extract Numeral.digitLimit (savingBags r id body)
    (saveRules id.isNone c.requestCodes) "body" = .ok data := by
  refine extract_saveRules fun hnew => ?_
  obtain ⟨i, hi⟩ := Option.isSome_iff_exists.mp (by simpa using hnew)
  exact ⟨i, identity_sent hi, hfits i hi⟩

variable (hdata : extract Numeral.digitLimit (savingBags r id body)
  (saveRules id.isNone c.requestCodes) "body" = .ok data)

include hdata

theorem inOrder_iff (hcodes : isInternalCode c.requestCodes = false) :
    InOrder (savingBags r id body) (saveRules id.isNone c.requestCodes) "body" data ↔
      Acceptable r.query id body := by
  have hidentity : (id.isNone = false → FieldMeets identityRule "id" "" data) ↔
      ∀ i, id = some i → Numeral.isInt i.toList = true := by
    constructor
    · intro h i hi
      have hnew : id.isNone = false := by simp [hi]
      exact (meets_identity_iff hdata hnew (identity_sent hi) (hfits i hi)).mp (h hnew)
    · intro h hnew
      obtain ⟨i, hi⟩ := Option.isSome_iff_exists.mp (by simpa using hnew)
      exact (meets_identity_iff hdata hnew (identity_sent hi) (hfits i hi)).mpr (h i hi)
  have hbody : bag (savingBags r id body) "body" = body := rfl
  rw [InOrder, strays_saveRules_iff hcodes, meets_saveRules_iff hdata, hidentity, hbody,
    query_eq_nil_iff]
  constructor
  · rintro ⟨⟨hdeclared, hquery⟩, hsendable, hid⟩
    exact ⟨hsendable, hquery, hdeclared, hid⟩
  · rintro ⟨hsendable, hquery, hdeclared, hid⟩
    exact ⟨⟨hdeclared, hquery⟩, hsendable, hid⟩

theorem identity_taken (h : Acceptable r.query id body) (htype : f.type = .integer)
    (hnull : f.nullable = true) : ∃ v, (attributesOf data).get? "id" = some v ∧ f.Takes v := by
  have hget : (attributesOf data).get? "id" = (data.get? "id").or (some .null) :=
    get?_attributesOf hdata "id" (by decide)
  rw [hget]
  cases id with
  | none =>
    rw [get?_identity_of_isNew hdata rfl]
    exact ⟨_, rfl, .null hnull⟩
  | some i =>
    rw [get?_identity hdata rfl (identity_sent rfl) (hfits i rfl), identityOf,
      if_pos (h.identity i rfl)]
    exact ⟨_, rfl, .integer htype⟩

omit hfits

theorem get?_text_written {name label s : String}
    (hr : (name, filledText label) ∈ sentRules c.requestCodes) (hname : name ∈ savedNames)
    (hs : s ≠ "") (hsent : body.get? name = some (.str s)) :
    (attributesOf data).get? (entityField name) = some (.str s) := by
  have hget : data.get? name = some (.str s) := by
    refine get?_picked_of_filled hdata (mem_saveRules.mpr (.inl hr)) rfl ?_
      (isEmpty_str_eq_false_iff.mpr hs)
    rw [sent?_of_no_default rfl rfl]
    exact hsent
  rw [get?_attributesOf hdata name hname, hget, Option.some_or]

theorem get?_name_written {s : String} (hs : s ≠ "") (hsent : body.get? "name" = some (.str s)) :
    (attributesOf data).get? "name" = some (.str s) :=
  get?_text_written hdata (show ("name", filledText "Name") ∈ _ by simp [sentRules]) (by decide) hs
    hsent

theorem get?_address_written {s : String} (hs : s ≠ "")
    (hsent : body.get? "htmlUrl" = some (.str s)) :
    (attributesOf data).get? "html_url" = some (.str s) :=
  get?_text_written hdata (show ("htmlUrl", filledText "URL") ∈ _ by simp [sentRules]) (by decide)
    hs hsent

theorem get?_visibility_written : (attributesOf data).get? "visibility" =
    some (withoutEmptyText ((body.get? "visibility").getD (.str "private"))) := by
  have hr : ("visibility", visibilityRule c.requestCodes) ∈ saveRules id.isNone c.requestCodes :=
    mem_saveRules.mpr (.inl (by simp [sentRules]))
  have hsent : sent? (savingBags r id body) "body" "visibility"
      (visibilityRule c.requestCodes).spec =
        some ((body.get? "visibility").getD (.str "private")) := sent?_of_default rfl rfl
  have hget : (attributesOf data).get? "visibility" =
      (data.get? "visibility").or (some (.str "private")) :=
    get?_attributesOf hdata "visibility" (by decide)
  rw [hget, get?_picked_of_string hdata hr rfl, hsent, Option.map_some, Option.some_or]

theorem get?_owner_written : (attributesOf data).get? "owner" =
    some (withoutEmptyText ((body.get? "owner").getD .null)) := by
  have hr : ("owner", ownerRule) ∈ saveRules id.isNone c.requestCodes :=
    mem_saveRules.mpr (.inl (by simp [sentRules]))
  have hsent : sent? (savingBags r id body) "body" "owner" ownerRule.spec = body.get? "owner" :=
    sent?_of_no_default rfl rfl
  have hget : (attributesOf data).get? "owner" = (data.get? "owner").or (some .null) :=
    get?_attributesOf hdata "owner" (by decide)
  rw [hget, get?_picked_of_string hdata hr rfl, hsent]
  cases body.get? "owner" <;> rfl

theorem get?_active_written : ∃ w, (attributesOf data).get? "active" = some w ∧
    coerce Numeral.digitLimit activeRule.spec
      (withoutEmptyText ((body.get? "active").getD (.bool true))) = .ok w := by
  have hr : ("active", activeRule) ∈ saveRules id.isNone c.requestCodes :=
    mem_saveRules.mpr (.inl (by simp [sentRules]))
  have hsent : sent? (savingBags r id body) "body" "active" activeRule.spec =
      some ((body.get? "active").getD (.bool true)) := sent?_of_default rfl rfl
  obtain ⟨w, hw⟩ : ∃ w, coerce Numeral.digitLimit activeRule.spec
      (withoutEmptyText ((body.get? "active").getD (.bool true))) = .ok w :=
    coerce_of_boolean rfl _
  have hget : (attributesOf data).get? "active" = (data.get? "active").or (some (.bool true)) :=
    get?_attributesOf hdata "active" (by decide)
  refine ⟨w, ?_, hw⟩
  rw [hget, (get?_picked_iff hdata hr).mpr ⟨_, hsent, hw⟩, Option.some_or]

theorem owner_taken (h : Acceptable r.query id body) (hanswerable : ¬Unanswerable body)
    (htype : f.type = .string) (hnull : f.nullable = true) :
    ∃ v, (attributesOf data).get? "owner" = some v ∧ f.Takes v := by
  refine ⟨_, get?_owner_written hdata, ?_⟩
  cases howner : body.get? "owner" with
  | none => exact .null hnull
  | some v =>
    refine takes_text htype (h.owner v howner) fun hempty => ⟨hnull, ?_⟩
    exact Bool.eq_false_iff.mpr fun harray => hanswerable (.owner howner hempty harray)

theorem visibility_taken (h : Acceptable r.query id body) (hanswerable : ¬Unanswerable body)
    (htype : f.type = .string) :
    ∃ v, (attributesOf data).get? "visibility" = some v ∧ f.Takes v := by
  refine ⟨_, get?_visibility_written hdata, ?_⟩
  cases hvisibility : body.get? "visibility" with
  | none => exact .text htype
  | some v =>
    refine takes_text htype ?_ fun hempty => absurd (.visibility hvisibility hempty) hanswerable
    rcases h.visibility v hvisibility with hempty | ⟨s, -, rfl⟩
    · exact .inl hempty
    · exact .inr (.string s)

theorem active_taken (h : Acceptable r.query id body) (hanswerable : ¬Unanswerable body)
    (htype : f.type = .boolean) :
    ∃ v, (attributesOf data).get? "active" = some v ∧ f.Takes v := by
  obtain ⟨w, hget, hw⟩ := get?_active_written hdata
  -- A text that stands for a truth value is read as one, so what was picked is a truth.
  have htruth : BaseType.boolean.Has w := by
    rw [(truth_of_coerce rfl hw).2]
    cases hactive : body.get? "active" with
    | none => exact .bool true
    | some v =>
      exact (h.active v hactive).resolve_left fun hempty => hanswerable (.active hactive hempty)
  obtain ⟨b⟩ := htruth
  exact ⟨_, hget, .truth htype⟩

theorem refused_of_unanswerable (h : Unanswerable body) : ∃ f ∈ favoriteModel,
    ∃ v, (attributesOf data).get? f.name = some v ∧ f.Refuses v := by
  cases h with
  | @active v hactive hempty =>
    obtain ⟨w, hget, hw⟩ := get?_active_written hdata
    rw [hactive, Option.getD_some, coerce_empty _ _ hempty, Except.ok.injEq] at hw
    subst hw
    exact ⟨{ name := "active", type := .boolean }, by decide, _, hget,
      refuses_empty (by decide) hempty nofun⟩
  | visibility hvisibility hempty =>
    refine ⟨{ name := "visibility", type := .string }, by decide, _, get?_visibility_written hdata,
      ?_⟩
    rw [hvisibility]
    exact refuses_empty (by decide) hempty nofun
  | owner howner hempty harray =>
    refine ⟨{ name := "owner", type := .string, nullable := true }, by decide, _,
      get?_owner_written hdata, ?_⟩
    rw [howner]
    exact refuses_empty (by decide) hempty fun _ => harray

include hfits

theorem taken_of_answerable (h : Acceptable r.query id body) (hanswerable : ¬Unanswerable body) :
    ∀ f ∈ favoriteModel, ∃ v, (attributesOf data).get? f.name = some v ∧ f.Takes v := by
  obtain ⟨s, hs, hname⟩ := h.name
  obtain ⟨address, hfilled, haddress⟩ := h.address
  simp only [favoriteModel, List.forall_mem_cons]
  exact ⟨identity_taken hfits hdata h rfl rfl, ⟨_, get?_name_written hdata hs hname, .text rfl⟩,
    owner_taken hdata h hanswerable rfl rfl,
    ⟨_, get?_address_written hdata hfilled haddress, .text rfl⟩,
    active_taken hdata h hanswerable rfl, visibility_taken hdata h hanswerable rfl,
    List.forall_mem_nil _⟩

theorem answered_picked (hweb : web.Documented) (h : Acceptable r.query id body) :
    ¬Unanswerable body ∧
        web.answered favoriteModel (attributesOf data) = .json 200 (.map (attributesOf data)) ∨
      Unanswerable body ∧ web.answered favoriteModel (attributesOf data) = web.failed := by
  unfold Web.answered
  by_cases hanswerable : Unanswerable body
  · obtain ⟨f, hf, v, hget, hrefuses⟩ := refused_of_unanswerable hdata hanswerable
    rw [hweb.refuses hf hget hrefuses]
    exact .inr ⟨hanswerable, rfl⟩
  · have hnames : (attributesOf data).names = favoriteModel.map ModelField.name :=
      names_attributesOf hdata
    have hnodup : (attributesOf data).names.Nodup := by
      rw [hnames]
      decide
    rw [hweb.takes hnodup hnames (taken_of_answerable hfits hdata h hanswerable)]
    exact .inl ⟨hanswerable, rfl⟩

end Picked

theorem visibility_of_acceptable (h : Acceptable r.query id body) :
    (withoutEmptyText ((body.get? "visibility").getD (.str "private"))).isEmpty = true ∨
      ∃ s ∈ visibilityTexts,
        withoutEmptyText ((body.get? "visibility").getD (.str "private")) = .str s := by
  cases hvisibility : body.get? "visibility" with
  | none => exact .inr ⟨"private", by decide, rfl⟩
  | some v =>
    rw [Option.getD_some, isEmpty_withoutEmptyText]
    rcases h.visibility v hvisibility with hempty | ⟨s, hs, rfl⟩
    · exact .inl hempty
    · have hfilled : ∀ s ∈ visibilityTexts, (Value.str s).isEmpty = false := by decide
      exact .inr ⟨s, hs, withoutEmptyText_of_not_isEmpty (hfilled s hs)⟩

theorem saved_eq : saved c r body id =
    (validated Numeral.digitLimit (savingBags r id body) (saveRules id.isNone c.requestCodes)
      r.method (r.context c) c.requestCodes).bind fun data => (ofRequest data).bind fun favorite =>
        (check (r.context c) favorite c.entityCodes).bind fun errors =>
          errors.raise.bind fun () => .ok (attributes favorite) :=
  rfl

theorem saved_of_acceptable (h : Acceptable r.query id body)
    (hentity : isInternalCode c.entityCodes = false)
    (hdata : extract Numeral.digitLimit (savingBags r id body)
      (saveRules id.isNone c.requestCodes) "body" = .ok data)
    (hvalidated : validated Numeral.digitLimit (savingBags r id body)
      (saveRules id.isNone c.requestCodes) r.method (r.context c) c.requestCodes = .ok data) :
    ∃ errors : Errors, saved c r body id = errors.raise.bind (fun () => .ok (attributesOf data)) ∧
      (errors = [] ↔ Savable r.query id body) ∧
      (errors.any fun e => e.2.isInternal) = false := by
  obtain ⟨s, hs, hname⟩ := h.name
  obtain ⟨address, hfilled, haddress⟩ := h.address
  obtain ⟨errors, hcheck, hempty, hinternal⟩ := check_written (r.context c) hentity
    (get?_name_written hdata hs hname) hs (get?_address_written hdata hfilled haddress) hfilled
    (get?_visibility_written hdata)
  refine ⟨errors, ?_, hempty.trans ⟨?_, ?_⟩, hinternal⟩
  · rw [saved_eq, hvalidated]
    simp only [Except.bind]
    rw [ofRequest_picked hdata]
    simp only [hcheck]
    rfl
  · rintro ⟨hlength, hlocated, -⟩
    refine ⟨h, fun t ht => ?_, fun t ht => ?_⟩
    · cases hname.symm.trans ht
      exact hlength
    · cases haddress.symm.trans ht
      exact hlocated
  · intro hsavable
    exact ⟨hsavable.nameFits s hname, hsavable.addressFits address haddress,
      visibility_of_acceptable h⟩

theorem saved_cases (hweb : web.Documented) (body : Table Value)
    (hcodes : isInternalCode c.requestCodes = false)
    (hentity : isInternalCode c.entityCodes = false) (hsource : defaultSource r.method = "body")
    (hfits : ∀ i, id = some i → Numeral.fits Numeral.digitLimit i.toList = true) :
    (Savable r.query id body ∧ ∃ attributes, saved c r body id = .ok attributes ∧
      (¬Unanswerable body ∧ web.answered favoriteModel attributes = .json 200 (.map attributes) ∨
        Unanswerable body ∧ web.answered favoriteModel attributes = web.failed)) ∨
    ¬Savable r.query id body ∧
      ∃ details, saved c r body id = .error (.rejected (.invalidFields details)) := by
  obtain ⟨data, hdata⟩ : ∃ data, extract Numeral.digitLimit (savingBags r id body)
      (saveRules id.isNone c.requestCodes) "body" = .ok data := exists_picked hfits
  have hpicked := hdata
  rw [← hsource] at hpicked
  have hacceptable := inOrder_iff hfits hdata hcodes
  rw [← hsource] at hacceptable
  -- A request is checked twice: its fields by the rules for saving, and only when they are in order
  -- the favorite written from them.
  rcases validated_of_fitting (fitting_saveRules hcodes) hcodes hpicked (r.context c) with
    ⟨horder, hvalidated⟩ | ⟨hno, details, hvalidated⟩
  · have h := hacceptable.mp horder
    obtain ⟨errors, hsaved, hnil, hinternal⟩ := saved_of_acceptable h hentity hdata hvalidated
    rcases Errors.raise_of_not_internal hinternal with hraise | ⟨details, hraise⟩
    · refine .inl ⟨hnil.mp (Errors.raise_eq_ok.mp hraise), attributesOf data, ?_,
        answered_picked hfits hdata hweb h⟩
      rw [hsaved, hraise]
      rfl
    · refine .inr ⟨fun hsavable => ?_, details, ?_⟩
      · cases (Errors.raise_eq_ok.mpr (hnil.mpr hsavable)).symm.trans hraise
      · rw [hsaved, hraise]
        rfl
  · refine .inr ⟨fun hsavable => hno (hacceptable.mpr hsavable.toAcceptable), details, ?_⟩
    rw [saved_eq, hvalidated]
    rfl

def savingRoute : Option String → Route
  | none => .insert
  | some id => .update id

theorem BodyFields.ofOctets_of_le {depth deeper : Nat} {octets : List UInt8} {b : BodyFields}
    (hle : depth ≤ deeper) (h : ofOctets depth octets = .ok b) : ofOctets deeper octets = .ok b := by
  unfold ofOctets at h ⊢
  split at h
  next hempty =>
    rw [if_pos hempty]
    exact h
  next hempty =>
    rw [if_neg hempty]
    split at h
    · cases h
    next hread =>
      obtain ⟨cs, hcs, hobject⟩ := Outcome.bind_eq_ok.mp hread
      have hdeeper : (Json.required (Text.decode? octets)).bind (Json.read deeper) = _ :=
        Outcome.bind_eq_ok.mpr ⟨cs, hcs, Json.read_of_le hle hobject⟩
      rw [hdeeper]
      exact h
    · cases h

def Saves (r : HttpRequest) : Option String → Prop
  | none => r.method = "POST" ∧ r.path = "/favorites"
  | some id =>
    r.method = "PUT" ∧ r.path = "/favorites/" ++ id ∧ id ≠ "" ∧ '/' ∉ id.toList

theorem source_of_saves (h : Saves r id) : defaultSource r.method = "body" := by
  cases id with
  | none => rw [h.1]; decide
  | some id => rw [h.1]; decide

theorem route_of_saves (hweb : web.Documented) (h : Saves r id) :
    web.route r.method r.path = .inl (savingRoute id) := by
  cases id with
  | none =>
    obtain ⟨hmethod, hpath⟩ := h
    rw [hmethod, hpath, hweb.inserts]
    rfl
  | some id =>
    obtain ⟨hmethod, hpath, hne, hslash⟩ := h
    rw [hmethod, hpath, hweb.updates hne hslash]
    rfl

def Web.bodyFields (web : Web) (r : HttpRequest) (id : Option String) : Except Fault BodyFields :=
  BodyFields.ofOctets (web.depth (savingRoute id)) r.body

theorem reply_of_saves (hweb : web.Documented) (h : Saves r id) (requestId : Option String) :
    web.reply c requestId r = web.withBody c requestId r (web.depth (savingRoute id))
      favoriteModel fun fields => saved c r fields id := by
  rw [Web.reply, route_of_saves hweb h]
  cases id <;> rfl

theorem rejected_or_tooDeep (h : web.bodyFields r id = .error fault) :
    (∃ why, fault = .rejected why) ∨ fault = .tooDeep := by
  unfold Web.bodyFields BodyFields.ofOctets at h
  split at h
  · cases h
  · split at h
    next fault hread =>
      cases h
      have hunreadable : Json.Unreadable fault := by
        rcases Outcome.bind_eq_error.mp hread with hdecoded | ⟨cs, -, hcs⟩
        · exact Json.unreadable_of_required hdecoded
        · exact Json.unreadable_of_read hcs
      cases hunreadable with
      | malformed => exact .inl ⟨_, rfl⟩
      | tooDeep => exact .inr rfl
    · cases h
    · cases h
      exact .inl ⟨_, rfl⟩

def Web.Stores (web : Web) (r : HttpRequest) (id : Option String) (fields : Table Value) : Prop :=
  (web.bodyFields r id).map BodyFields.fields = .ok fields ∧ Savable r.query id fields

/-- The requests that the service fails on: the body is nested deeper than it can read, or the
    favorite that is stored cannot be answered. -/
inductive Web.FailsOn (web : Web) (r : HttpRequest) (id : Option String) : Prop
  | deep : web.bodyFields r id = .error .tooDeep → web.FailsOn r id
  | unanswerable {fields : Table Value} : web.Stores r id fields → Unanswerable fields →
      web.FailsOn r id

theorem not_failsOn {fields : Table Value} (h : web.Stores r id fields)
    (hanswerable : ¬Unanswerable fields) : ¬web.FailsOn r id := by
  rintro (hdeep | ⟨hother, hunanswerable⟩)
  · have hread := h.1
    rw [hdeep] at hread
    cases hread
  · obtain rfl := Except.ok.inj (h.1.symm.trans hother.1)
    exact hanswerable hunanswerable

theorem status_cases (hweb : web.Documented) (h : Saves r id)
    (hcodes : isInternalCode c.requestCodes = false)
    (hentity : isInternalCode c.entityCodes = false)
    (hwhole : ∀ b, web.bodyFields r id = .ok b → b.brokenName = false ∧ b.brokenText = false)
    (hfits : ∀ i, id = some i → Numeral.fits Numeral.digitLimit i.toList = true)
    (requestId : Option String) :
    (∃ fields, web.Stores r id fields ∧ ¬Unanswerable fields ∧
      (web.reply c requestId r).status = 200) ∨
    (web.FailsOn r id ∧ (web.reply c requestId r).status = 500) ∨
    (¬∃ fields, web.Stores r id fields) ∧ ¬web.FailsOn r id ∧
      (web.reply c requestId r).status = 400 := by
  rw [reply_of_saves hweb h, Web.withBody]
  cases hread : web.bodyFields r id with
  | error fault =>
    have hoctets : BodyFields.ofOctets (web.depth (savingRoute id)) r.body = .error fault := hread
    rw [hoctets]
    have hstores : ¬∃ fields, web.Stores r id fields := by
      rintro ⟨fields, hfields, -⟩
      rw [hread] at hfields
      cases hfields
    rcases rejected_or_tooDeep hread with ⟨why, rfl⟩ | rfl
    · refine .inr (.inr ⟨hstores, ?_, rfl⟩)
      rintro (hdeep | ⟨hfields, -⟩)
      · cases hread.symm.trans hdeep
      · exact hstores ⟨_, hfields⟩
    · exact .inr (.inl ⟨.deep hread, hweb.fails⟩)
  | ok b =>
    have hoctets : BodyFields.ofOctets (web.depth (savingRoute id)) r.body = .ok b := hread
    obtain ⟨hname, htext⟩ := hwhole b hread
    -- The body that was read has one table of fields, so only that one can be stored.
    have hstores : ∀ {fields}, web.Stores r id fields ↔
        fields = b.fields ∧ Savable r.query id fields := by
      intro fields
      rw [Web.Stores, hread, Except.map, Except.ok.injEq, eq_comm]
    rw [hoctets]
    simp only [hname, htext, Bool.false_eq_true, if_false]
    rcases saved_cases hweb b.fields hcodes hentity (source_of_saves h) hfits with
      ⟨hsavable, attributes, hsaved, hanswer⟩ | ⟨hno, details, hsaved⟩
    · rw [hsaved]
      dsimp only
      rcases hanswer with ⟨hanswerable, heq⟩ | ⟨hunanswerable, heq⟩ <;> rw [heq]
      · exact .inl ⟨_, hstores.mpr ⟨rfl, hsavable⟩, hanswerable, rfl⟩
      · exact .inr (.inl ⟨.unanswerable (hstores.mpr ⟨rfl, hsavable⟩) hunanswerable, hweb.fails⟩)
    · have hnone : ¬∃ fields, web.Stores r id fields := by
        rintro ⟨fields, hfields⟩
        obtain ⟨rfl, hsavable⟩ := hstores.mp hfields
        exact hno hsavable
      rw [hsaved]
      refine .inr (.inr ⟨hnone, ?_, rfl⟩)
      rintro (hdeep | ⟨hfields, -⟩)
      · cases hread.symm.trans hdeep
      · exact hnone ⟨_, hfields⟩

/-- A request that saves is answered or refused exactly when its body is not nested too deep and it
    does not store a favorite whose body left empty what the answer must fill; else the service
    fails. -/
theorem saving_status (hweb : web.Documented) (h : Saves r id)
    (hwhole : ∀ b, web.bodyFields r id = .ok b → b.brokenName = false ∧ b.brokenText = false)
    (hfits : ∀ i, id = some i → Numeral.fits Numeral.digitLimit i.toList = true)
    (requestId : Option String) :
    ((web.reply {} requestId r).status = 200 ∨ (web.reply {} requestId r).status = 400 ↔
      ¬web.FailsOn r id) ∧
    ((web.reply {} requestId r).status = 200 ↔
      ∃ fields, web.Stores r id fields ∧ ¬Unanswerable fields) ∧
    ((web.reply {} requestId r).status = 500 ↔ web.FailsOn r id) := by
  rcases status_cases hweb h (c := {}) (by decide) (by decide) hwhole hfits requestId with
    ⟨fields, hstores, hanswerable, hstatus⟩ | ⟨hfails, hstatus⟩ | ⟨hnone, hfails, hstatus⟩
  · have hfails : ¬web.FailsOn r id := not_failsOn hstores hanswerable
    have hstored : ∃ fields, web.Stores r id fields ∧ ¬Unanswerable fields :=
      ⟨fields, hstores, hanswerable⟩
    simp [hstatus, hfails, hstored]
  · have hstored : ¬∃ fields, web.Stores r id fields ∧ ¬Unanswerable fields := by
      rintro ⟨fields, hstores, hanswerable⟩
      exact not_failsOn hstores hanswerable hfails
    rw [hstatus]
    simp [hfails, hstored]
  · have hstored : ¬∃ fields, web.Stores r id fields ∧ ¬Unanswerable fields := by
      rintro ⟨fields, hstores, -⟩
      exact hnone ⟨fields, hstores⟩
    rw [hstatus]
    simp [hfails, hstored]

def ModelField.admits (f : ModelField) : Value → Bool
  | .null => f.nullable
  | .str _ => f.type = .string
  | .int _ => f.type = .integer
  | .bool _ => f.type = .boolean
  | _ => false

def Web.plain : Web where
  route method path :=
    match method, Text.dropMark? "/favorites".toList path.toList with
    | "POST", some [] => .inl .insert
    | "PUT", some ('/' :: c :: cs) =>
      if '/' ∈ c :: cs then .inr (.text 404 "") else .inl (.update (String.ofList (c :: cs)))
    | _, _ => .inr (.text 404 "")
  build model fields :=
    if model.all fun f => (fields.get? f.name).all f.admits then some fields else none
  failed := .text 500 "Internal Server Error"
  depth _ := 900
  exported := ""

theorem Web.documented_plain : Web.plain.Documented where
  inserts := rfl
  updates {id} hne hslash := by
    have hmark : Text.dropMark? "/favorites".toList ("/favorites/" ++ id).toList =
        some ('/' :: id.toList) := by
      rw [String.toList_append]
      exact Text.dropMark?_self_append "/favorites".toList ('/' :: id.toList)
    obtain ⟨c, cs, hid⟩ : ∃ c cs, id.toList = c :: cs :=
      List.exists_cons_of_ne_nil (by simpa using hne)
    rw [hid] at hslash
    have hroute : Web.plain.route "PUT" ("/favorites/" ++ id) =
        if '/' ∈ c :: cs then .inr (.text 404 "") else .inl (.update (String.ofList (c :: cs))) := by
      unfold Web.plain
      dsimp only
      rw [hmark, hid]
      rfl
    rw [hroute, if_neg hslash, ← hid, String.ofList_toList]
  takes {model fields} _ _ htakes := by
    refine if_pos (List.all_eq_true.mpr fun f hf => ?_)
    obtain ⟨v, hget, hv⟩ := htakes f hf
    rw [hget, Option.all_some]
    cases hv with
    | null h => exact h
    | text h => exact decide_eq_true h
    | integer h => exact decide_eq_true h
    | truth h => exact decide_eq_true h
  refuses {model fields f v} hf hget hrefuses := by
    refine if_neg fun hall => ?_
    have hv := List.all_eq_true.mp hall f hf
    rw [hget, Option.all_some] at hv
    cases hrefuses with
    | null h => cases h.symm.trans hv
    | array _ harray =>
      cases v with
      | list => cases hv
      | tuple => cases hv
      | _ => cases harray
  fails := rfl

def renamed : HttpRequest :=
  { method := "PUT", path := "/favorites/12"
    body := Text.utf8Octets
      "\x7b\"name\": \"Lean\", \"htmlUrl\": \"https://lean\", \"active\": \"f\"\x7d" }

theorem whole_renamed : ∀ b, Web.plain.bodyFields renamed (some "12") = .ok b →
    b.brokenName = false ∧ b.brokenText = false := by
  have hwhole : ((Web.plain.bodyFields renamed (some "12")).toOption.all fun b =>
      !b.brokenName && !b.brokenText) = true := by
    decide +kernel
  intro b hb
  rw [hb] at hwhole
  simpa [Except.toOption] using hwhole

theorem renamed_answered : Web.plain.Documented ∧ Saves renamed (some "12") ∧
    (Web.plain.reply {} none renamed).status = 200 ∧
    ∃ fields, Web.plain.Stores renamed (some "12") fields ∧ ¬Unanswerable fields := by
  have hsaves : Saves renamed (some "12") := ⟨rfl, rfl, by decide, by decide⟩
  have hfits : ∀ i, some "12" = some i → Numeral.fits Numeral.digitLimit i.toList = true := by
    rintro i ⟨⟩
    decide
  have hstatus : (Web.plain.reply {} none renamed).status = 200 := by decide +kernel
  exact ⟨Web.documented_plain, hsaves, hstatus,
    (saving_status Web.documented_plain hsaves whole_renamed hfits none).2.1.mp hstatus⟩

def undecided : HttpRequest :=
  { method := "POST", path := "/favorites"
    body := Text.utf8Octets
      "\x7b\"name\": \"x\", \"htmlUrl\": \"https://x\", \"active\": null\x7d" }

theorem undecided_saved : ∃ b attributes, BodyFields.ofOctets 1 undecided.body = .ok b ∧
    b.brokenName = false ∧ saved {} undecided b.fields none = .ok attributes ∧
    attributes.get? "active" = some .null := by
  have hcheck : ((BodyFields.ofOctets 1 undecided.body).toOption.any fun b => !b.brokenName &&
      (saved {} undecided b.fields none).toOption.any fun attributes =>
        (attributes.get? "active").any Value.isNull) = true := by
    decide +kernel
  cases hb : BodyFields.ofOctets 1 undecided.body with
  | error => rw [hb] at hcheck; cases hcheck
  | ok b =>
    rw [hb] at hcheck
    obtain ⟨hname, hsaves⟩ := Bool.and_eq_true_iff.mp hcheck
    cases hsaved : saved {} undecided b.fields none with
    | error => rw [hsaved] at hsaves; cases hsaves
    | ok attributes =>
      rw [hsaved] at hsaves
      cases hactive : attributes.get? "active" with
      | none =>
        simp [Except.toOption, hactive] at hsaves
      | some v =>
        have hnull : v.isNull = true := by simpa [Except.toOption, hactive] using hsaves
        cases v with
        | null => exact ⟨b, attributes, rfl, by simpa using hname, hsaved, hactive⟩
        | _ => cases hnull

theorem undecided_fails : Saves undecided none ∧ Web.plain.Documented ∧
    0 < Web.plain.depth .insert ∧ ∀ web : Web, web.Documented → 0 < web.depth .insert →
      (web.reply {} none undecided).status = 500 := by
  have hsaves : Saves undecided none := ⟨rfl, rfl⟩
  refine ⟨hsaves, Web.documented_plain, by decide, fun web hweb hdepth => ?_⟩
  obtain ⟨b, attributes, hb, hname, hsaved, hactive⟩ := undecided_saved
  have hoctets : BodyFields.ofOctets (web.depth (savingRoute none)) undecided.body = .ok b :=
    BodyFields.ofOctets_of_le hdepth hb
  have hrefused : web.build favoriteModel attributes = none :=
    hweb.refuses (f := { name := "active", type := .boolean }) (by decide) hactive (.null rfl)
  rw [reply_of_saves hweb hsaves, Web.withBody, hoctets]
  simp only [hname, hsaved, Web.answered, hrefused, Bool.false_eq_true, ite_self, hweb.fails]

end FieldRules.Service
