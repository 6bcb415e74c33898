import FieldRules.Proofs.Numeral.Canonical
import FieldRules.Proofs.Service.Saving

namespace FieldRules.Service

open Favorite Request Validation

inductive Reads : Value → Bool → Prop
  | bool (b : Bool) : Reads (.bool b) b
  | yes {s : String} : s ∈ Numeral.trueTexts → Reads (.str s) true
  | no {s : String} : s ∈ Numeral.truthTexts → s ∉ Numeral.trueTexts → Reads (.str s) false

structure Shown where
  id : Option Int
  name : String
  owner : Option String
  address : String
  active : Bool
  visibility : String

def identityValue : Option Int → Value
  | some n => .int n
  | none => .null

def Identifies (id : Option String) (n : Option Int) : Prop :=
  (id = none → n = none) ∧ ∀ i, id = some i → ∃ m, n = some m ∧ Numeral.Spells i.toList m

namespace Shown

def attributes (s : Shown) : Table Value := [
  ("id", identityValue s.id),
  ("name", .str s.name),
  ("owner", optional s.owner),
  ("html_url", .str s.address),
  ("active", .bool s.active),
  ("visibility", .str s.visibility)]

structure Valid (s : Shown) : Prop where
  name : 1 ≤ s.name.length ∧ s.name.length ≤ 255
  address : 1 ≤ s.address.length ∧ s.address.length ≤ 2048
  located : IsAddress s.address
  visibility : s.visibility = "private" ∨ s.visibility = "public"

structure TakenFrom (s : Shown) (id : Option String) (body : Table Value) : Prop where
  identity : Identifies id s.id
  name : body.get? "name" = some (.str s.name)
  address : body.get? "htmlUrl" = some (.str s.address)
  owner : withoutEmptyText ((body.get? "owner").getD .null) = optional s.owner
  active : Reads ((body.get? "active").getD (.bool true)) s.active
  visibility : (body.get? "visibility").getD (.str "private") = .str s.visibility

end Shown

variable {web : Web} {c : Config} {r : HttpRequest} {id : Option String} {body data attributes : Table Value}
  {v w : Value} {limit : Numeral.DigitLimit} {spec : RuleSpec} {i : String}

theorem read_of_coerce (hbase : spec.base? = some .boolean) (hv : Truth v)
    (h : coerce limit spec (withoutEmptyText v) = .ok w) : ∃ b, w = .bool b ∧ Reads v b := by
  cases hv with
  | bool b =>
    simp only [withoutEmptyText, coerce, Except.ok.injEq] at h
    exact ⟨b, h.symm, .bool b⟩
  | @text s hs =>
    have hne : s ≠ "" := by
      rintro rfl
      exact absurd hs (by decide)
    rw [withoutEmptyText_of_not_isEmpty (isEmpty_str_eq_false_iff.mpr hne)] at h
    simp only [coerce, hbase, List.contains_iff_mem.mpr hs, if_true, Except.ok.injEq] at h
    refine ⟨_, h.symm, ?_⟩
    by_cases hyes : s ∈ Numeral.trueTexts
    · rw [List.contains_iff_mem.mpr hyes]
      exact .yes hyes
    · rw [Bool.eq_false_iff.mpr (mt List.contains_iff_mem.mp hyes)]
      exact .no hs hyes

theorem fits_of_coerce (h : coerce limit identityRule.spec (withoutEmptyText (.str i)) = .ok w)
    (hw : BaseType.integer.Has w) : Numeral.fits limit i.toList = true := by
  have hbase : identityRule.spec.base? = some .integer := rfl
  unfold withoutEmptyText at h
  split at h
  · cases h
    cases hw
  · cases hint : Numeral.isInt i.toList with
    | true =>
      rw [coerce_of_isInt limit hbase hint] at h
      split at h
      next hfits => exact hfits
      next => cases h
    | false =>
      rw [coerce_of_not_isInt limit hbase hint] at h
      cases h
      cases hw

theorem fits_of_picked (hid : id = some i)
    (hdata : extract limit (savingBags r id body) (saveRules id.isNone c.requestCodes) "body" =
      .ok data)
    (hmeets : FieldMeets identityRule "id" "" data) : Numeral.fits limit i.toList = true := by
  obtain ⟨w, hget, -, hvalue⟩ := (plain_identityRule.fieldMeets_iff_of_filled rfl).mp hmeets
  have hr : ("id", identityRule) ∈ saveRules id.isNone c.requestCodes :=
    mem_saveRules.mpr (.inr ⟨rfl, by simp [hid]⟩)
  obtain ⟨sent, hsent, hcoerce⟩ := (get?_picked_iff hdata hr).mp hget
  cases (sent?_identity (identity_sent hid)).symm.trans hsent
  exact fits_of_coerce hcoerce (plain_identityRule.valueMeets_iff.mp hvalue).1

theorem saved_eq_ok (hcodes : isInternalCode c.requestCodes = false)
    (hentity : isInternalCode c.entityCodes = false) (hsource : defaultSource r.method = "body")
    (h : saved c r body id = .ok attributes) :
    ∃ data, extract Numeral.digitLimit (savingBags r id body)
        (saveRules id.isNone c.requestCodes) "body" = .ok data ∧
      attributes = attributesOf data ∧ Savable r.query id body ∧
      ∀ i, id = some i → Numeral.fits Numeral.digitLimit i.toList = true := by
  rw [saved_eq] at h
  obtain ⟨data, hvalidated, hrest⟩ := Outcome.bind_eq_ok.mp h
  have hpicked := (validated_eq_ok hvalidated).1
  have hdata := hpicked
  rw [hsource] at hdata
  rcases validated_of_fitting (fitting_saveRules hcodes) hcodes hpicked (r.context c) with
    ⟨horder, -⟩ | ⟨-, details, hrejected⟩
  · have hfits : ∀ i, id = some i → Numeral.fits Numeral.digitLimit i.toList = true := by
      intro i hid
      have hr : ("id", identityRule) ∈ saveRules id.isNone c.requestCodes :=
        mem_saveRules.mpr (.inr ⟨rfl, by simp [hid]⟩)
      exact fits_of_picked hid hdata (horder.2 _ hr)
    rw [hsource] at horder
    have hacceptable := (inOrder_iff hfits hdata hcodes).mp horder
    obtain ⟨errors, hsaved, hnil, -⟩ := saved_of_acceptable hacceptable hentity hdata hvalidated
    rw [saved_eq, h] at hsaved
    obtain ⟨⟨⟩, hraise, hattributes⟩ := Outcome.bind_eq_ok.mp hsaved.symm
    exact ⟨data, hdata, (Except.ok.inj hattributes).symm, hnil.mp (Errors.raise_eq_ok.mp hraise),
      hfits⟩
  · cases hrejected.symm.trans hvalidated

theorem FailureKind.status_ne (kind : FailureKind) : kind.status ≠ 200 := by
  cases kind <;> exact nofun

theorem status_ofFault_ne (hweb : web.Documented) (c : Config) (requestId : Option String)
    (fault : Fault) : (web.ofFault c requestId fault).status ≠ 200 := by
  unfold Web.ofFault
  split
  · rw [hweb.fails]
    decide
  next f _ => exact f.kind.status_ne

theorem answer_of_status (hweb : web.Documented) {requestId : Option String} {depth : Nat}
    {model : List ModelField} {answer : Table Value → Except Fault (Table Value)}
    (h : (web.withBody c requestId r depth model answer).status = 200) :
    ∃ b fields, BodyFields.ofOctets depth r.body = .ok b ∧ answer b.fields = .ok fields ∧
      (web.answered model fields).status = 200 ∧
      web.withBody c requestId r depth model answer = web.answered model fields := by
  have hfailed : web.failed.status ≠ 200 := by
    rw [hweb.fails]
    decide
  unfold Web.withBody at h ⊢
  split at h
  · exact absurd h (status_ofFault_ne hweb _ _ _)
  next b hb =>
    split at h
    · exact absurd h hfailed
    next hname =>
      split at h
      · exact absurd h (status_ofFault_ne hweb _ _ _)
      next fields hfields =>
        split at h
        · exact absurd h hfailed
        next htext =>
          refine ⟨b, fields, hb, hfields, h, ?_⟩
          simp only [hname, htext, Bool.false_eq_true, if_false]

theorem text_of_withoutEmptyText (hhas : v.isEmpty = true ∨ BaseType.string.Has v)
    (hanswerable : v.isEmpty = true → v.isArray = false) :
    ∃ owner, withoutEmptyText v = optional owner := by
  rcases hhas with hempty | ⟨⟨s⟩⟩
  · cases v with
    | null => exact ⟨none, rfl⟩
    | str s =>
      obtain rfl : s = "" := by simpa [Value.isEmpty] using hempty
      exact ⟨none, rfl⟩
    | list => cases hanswerable hempty
    | tuple => cases hanswerable hempty
    | _ => cases hempty
  · by_cases hs : s = ""
    · subst hs
      exact ⟨none, rfl⟩
    · exact ⟨some s, withoutEmptyText_of_not_isEmpty (isEmpty_str_eq_false_iff.mpr hs)⟩

theorem owner_sent (h : Sendable body) (hanswerable : ¬Unanswerable body) :
    ∃ owner, withoutEmptyText ((body.get? "owner").getD .null) = optional owner := by
  cases howner : body.get? "owner" with
  | none => exact ⟨none, rfl⟩
  | some v =>
    refine text_of_withoutEmptyText (h.owner v howner) fun hempty => ?_
    exact Bool.eq_false_iff.mpr fun harray => hanswerable (.owner howner hempty harray)

theorem truth_sent (h : Sendable body) (hanswerable : ¬Unanswerable body) :
    Truth ((body.get? "active").getD (.bool true)) := by
  cases hactive : body.get? "active" with
  | none => exact .bool true
  | some v =>
    exact (h.active v hactive).resolve_left fun hempty =>
      hanswerable (.active hactive hempty)

theorem visibility_sent (h : Sendable body) (hanswerable : ¬Unanswerable body) :
    ∃ s, (body.get? "visibility").getD (.str "private") = .str s ∧
      (s = "private" ∨ s = "public") := by
  cases hvisibility : body.get? "visibility" with
  | none => exact ⟨"private", rfl, .inl rfl⟩
  | some v =>
    obtain ⟨s, hs, rfl⟩ := (h.visibility v hvisibility).resolve_left
      fun hempty => hanswerable (.visibility hvisibility hempty)
    exact ⟨s, rfl, by simpa [visibilityTexts] using hs⟩

section Stored

variable (hfits : ∀ i, id = some i → Numeral.fits Numeral.digitLimit i.toList = true)
  (hdata : extract Numeral.digitLimit (savingBags r id body)
    (saveRules id.isNone c.requestCodes) "body" = .ok data)

include hfits hdata

theorem get?_identity_written (h : Acceptable r.query id body) :
    ∃ n, Identifies id n ∧ (attributesOf data).get? "id" = some (identityValue n) := by
  have hget : (attributesOf data).get? "id" = (data.get? "id").or (some .null) :=
    get?_attributesOf hdata "id" (by decide)
  rw [hget]
  cases id with
  | none =>
    rw [get?_identity_of_isNew hdata rfl]
    exact ⟨none, ⟨fun _ => rfl, fun _ hi => absurd hi.symm (Option.some_ne_none _)⟩, rfl⟩
  | some i =>
    have hint := h.identity i rfl
    rw [get?_identity hdata rfl (identity_sent rfl) (hfits i rfl), identityOf, if_pos hint]
    refine ⟨some (Numeral.intOf i.toList), ⟨fun hi => absurd hi (Option.some_ne_none i), ?_⟩, rfl⟩
    rintro _ ⟨⟩
    exact ⟨_, rfl, Numeral.spells_intOf hint⟩

theorem exists_shown (h : Savable r.query id body) (hanswerable : ¬Unanswerable body) :
    ∃ shown : Shown, shown.Valid ∧ shown.TakenFrom id body ∧
      attributesOf data = shown.attributes := by
  obtain ⟨n, hid, hidentity⟩ := get?_identity_written hfits hdata h.toAcceptable
  obtain ⟨name, hfilled, hname⟩ := h.name
  obtain ⟨address, hreal, haddress⟩ := h.address
  obtain ⟨owner, howner⟩ := owner_sent h.toSendable hanswerable
  obtain ⟨visibility, hvisibility, henum⟩ := visibility_sent h.toSendable hanswerable
  obtain ⟨w, hactive, hcoerce⟩ := get?_active_written hdata
  obtain ⟨active, rfl, hreads⟩ :=
    read_of_coerce rfl (truth_sent h.toSendable hanswerable) hcoerce
  have hshown : withoutEmptyText (.str visibility) = .str visibility := by
    rcases henum with rfl | rfl <;> rfl
  have hlength : ∀ {s : String}, s ≠ "" → 1 ≤ s.length := by
    intro s hs
    have hzero : s.length ≠ 0 := by simpa using hs
    omega
  refine ⟨⟨n, name, owner, address, active, visibility⟩,
    ⟨⟨hlength hfilled, h.nameFits name hname⟩,
      ⟨hlength hreal, (h.addressFits address haddress).1⟩,
      (h.addressFits address haddress).2, henum⟩,
    ⟨hid, hname, haddress, howner, hreads, hvisibility⟩, ?_⟩
  have hnames : Table.names (attributesOf data) = Table.names fields := names_attributesOf hdata
  refine Table.ext_of_names ?_ hnames ?_
  · rw [hnames]
    decide
  · rw [hnames]
    simp only [fields, Table.names, List.map_cons, List.map_nil, List.forall_mem_cons]
    refine ⟨hidentity, get?_name_written hdata hfilled hname, ?_,
      get?_address_written hdata hreal haddress, hactive, ?_, List.forall_mem_nil _⟩
    · rw [get?_owner_written hdata, howner]
      rfl
    · rw [get?_visibility_written hdata, hvisibility, hshown]
      rfl

end Stored

/-- The favorite that a request is answered with is valid and taken from the request: its body has
    only the fields of a favorite, it has no query, and each field of the answer is the one that was
    sent, or the default of one that was not. -/
theorem answered_favorite (hweb : web.Documented) (h : Saves r id) (requestId : Option String)
    (hstatus : (web.reply {} requestId r).status = 200) :
    ∃ (body : Table Value) (shown : Shown),
      (web.bodyFields r id).map BodyFields.fields = .ok body ∧
      (∀ e ∈ body, e.1 ∈ sentNames) ∧ r.query = [] ∧ shown.Valid ∧ shown.TakenFrom id body ∧
      web.reply {} requestId r = .json 200 (.map shown.attributes) := by
  rw [reply_of_saves hweb h] at hstatus ⊢
  obtain ⟨b, attributes, hread, hsaved, hok, hreply⟩ := answer_of_status hweb hstatus
  obtain ⟨data, hdata, rfl, hsavable, hfits⟩ :=
    saved_eq_ok (by decide) (by decide) (source_of_saves h) hsaved
  rcases answered_picked hfits hdata hweb hsavable.toAcceptable with
    ⟨hanswerable, hshows⟩ | ⟨-, hfails⟩
  · obtain ⟨shown, hvalid, htaken, hshown⟩ := exists_shown hfits hdata hsavable hanswerable
    refine ⟨b.fields, shown, ?_, hsavable.declared, hsavable.query, hvalid, htaken, ?_⟩
    · exact congrArg (Except.map BodyFields.fields) hread
    · exact hreply.trans (hshows.trans (by rw [hshown]))
  · rw [hfails, hweb.fails] at hok
    cases hok

def unowned : HttpRequest :=
  { method := "PUT", path := "/favorites/++-7"
    body := Text.utf8Octets
      "\x7b\"name\": \"Lean\", \"htmlUrl\": \"https://lean\", \"owner\": \"\"\x7d" }

theorem unowned_answered : Web.plain.Documented ∧ Saves unowned (some "++-7") ∧
    (Web.plain.reply {} none unowned).status = 200 ∧
    ∃ (body : Table Value) (shown : Shown),
      (Web.plain.bodyFields unowned (some "++-7")).map BodyFields.fields = .ok body ∧
      (∀ e ∈ body, e.1 ∈ sentNames) ∧ unowned.query = [] ∧ shown.Valid ∧
      shown.TakenFrom (some "++-7") body ∧
      Web.plain.reply {} none unowned = .json 200 (.map shown.attributes) := by
  have hsaves : Saves unowned (some "++-7") := ⟨rfl, rfl, by decide, by decide⟩
  have hstatus : (Web.plain.reply {} none unowned).status = 200 := by decide +kernel
  exact ⟨Web.documented_plain, hsaves, hstatus,
    answered_favorite Web.documented_plain hsaves none hstatus⟩

end FieldRules.Service
