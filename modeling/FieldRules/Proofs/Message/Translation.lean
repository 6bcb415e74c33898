import FieldRules.Message.Catalog
import FieldRules.Proofs.Text.Replacing
import FieldRules.Proofs.Validation.Verdict

namespace FieldRules

namespace Template

def IsName (name : List Char) : Prop :=
  (∀ c ∈ name, c ∉ ['\x7b', '\x7d', '!', ':', '.', '[']) ∧ ∃ c ∈ name, Text.isAnyDigit c = false

instance (name : List Char) : Decidable (IsName name) :=
  decidable_of_iff ((name.all fun c => decide (c ∉ ['\x7b', '\x7d', '!', ':', '.', '['])) = true ∧
    (name.any fun c => !Text.isAnyDigit c) = true) (by simp [IsName])

inductive Piece where
  | text (cs : List Char)
  | hole (name : List Char) (h : IsName name)

def doubled (cs : List Char) : List Char :=
  cs.flatMap fun c => if c = '\x7b' ∨ c = '\x7d' then [c, c] else [c]

def Piece.written : Piece → List Char
  | text cs => doubled cs
  | hole name _ => '\x7b' :: (name ++ ['\x7d'])

def Piece.filled (params : Table Value) : Piece → List Char
  | text cs => cs
  | hole name h => match params.get? (String.ofList name) with
    | some v => v.text.toList
    | none => (hole name h).written

def written (pieces : List Piece) : String := String.ofList (pieces.flatMap Piece.written)

def filled (params : Table Value) (pieces : List Piece) : String :=
  String.ofList (pieces.flatMap (Piece.filled params))

variable {params : Table Value} {name cs : List Char}

theorem IsName.no_brace (h : IsName name) : '\x7b' ∉ name ∧ '\x7d' ∉ name :=
  ⟨fun hmem => h.1 _ hmem (by decide), fun hmem => h.1 _ hmem (by decide)⟩

theorem fillFrom_plain {c : Char} (hopen : c ≠ '\x7b') (hclose : c ≠ '\x7d') (cs : List Char) :
    fillFrom params none (c :: cs) = c :: fillFrom params none cs := by
  cases cs with
  | nil => simp [fillFrom, hopen]
  | cons d cs => simp [fillFrom, hopen, hclose]

theorem fillFrom_doubled (cs rest : List Char) :
    fillFrom params none (doubled cs ++ rest) = cs ++ fillFrom params none rest := by
  induction cs with
  | nil => rfl
  | cons c cs ih =>
    have hcons : doubled (c :: cs) ++ rest =
        (if c = '\x7b' ∨ c = '\x7d' then [c, c] else [c]) ++ (doubled cs ++ rest) := by
      simp [doubled]
    rw [hcons]
    by_cases hopen : c = '\x7b'
    · simp [hopen, fillFrom, ih]
    · by_cases hclose : c = '\x7d'
      · simp [hclose, fillFrom, ih]
      · simp [hopen, hclose, fillFrom_plain, ih]

theorem fillFrom_name (seen rest : List Char) (hclose : '\x7d' ∉ name) :
    fillFrom params (some seen) (name ++ '\x7d' :: rest) =
      fill params (seen.reverse ++ name) ++ fillFrom params none rest := by
  induction name generalizing seen with
  | nil => simp [fillFrom]
  | cons c name ih =>
    have hc : c ≠ '\x7d' ∧ '\x7d' ∉ name := by simpa [eq_comm] using hclose
    have hrest := ih (c :: seen) hc.2
    simpa [fillFrom, hc.1] using hrest

theorem fillFrom_hole (h : IsName name) (rest : List Char) :
    fillFrom params none ((Piece.hole name h).written ++ rest) =
      (Piece.hole name h).filled params ++ fillFrom params none rest := by
  obtain ⟨hopen, hclose⟩ := h.no_brace
  have hentered : fillFrom params none ((Piece.hole name h).written ++ rest) =
      fillFrom params (some []) (name ++ '\x7d' :: rest) := by
    cases name with
    | nil => simp [Piece.written, fillFrom]
    | cons d name =>
      have hd : d ≠ '\x7b' := fun hd => hopen (hd ▸ List.mem_cons_self)
      simp [Piece.written, fillFrom, hd]
  rw [hentered, fillFrom_name [] rest hclose]
  rfl

theorem render_written (params : Table Value) (pieces : List Piece) :
    render params (written pieces) = filled params pieces := by
  rw [render, written, String.toList_ofList]
  refine congrArg String.ofList ?_
  induction pieces with
  | nil => rfl
  | cons piece pieces ih =>
    rw [List.flatMap_cons, List.flatMap_cons, ← ih]
    cases piece with
    | text cs => exact fillFrom_doubled cs _
    | hole name h => exact fillFrom_hole h _

end Template

namespace Text

theorem fromMark?_append {m : Char} {ms : List Char} (hm : m ∉ ms) (low rest : List Char) :
    fromMark? (m :: ms) (low ++ (m :: ms ++ rest)) =
      some ((fromMark? (m :: ms) low).getD [] ++ (m :: ms ++ rest)) := by
  induction low with
  | nil =>
    have hfound : (dropMark? (m :: ms) (m :: ms ++ rest)).isSome = true :=
      isSome_dropMark?_iff.mpr ⟨rest, rfl⟩
    exact if_pos hfound
  | cons c low ih =>
    -- an occurrence that begins in the lead cannot run into the mark
    have hlead : (dropMark? (m :: ms) (c :: low ++ (m :: ms ++ rest))).isSome =
        (dropMark? (m :: ms) (c :: low)).isSome := by
      rw [Bool.eq_iff_iff]
      constructor
      · intro h
        by_cases hc : m = c
        · simp only [List.cons_append, dropMark?, hc, if_true] at h ⊢
          exact dropMark?_append (hc ▸ hm) h
        · simp [dropMark?, hc] at h
      · rw [isSome_dropMark?_iff, isSome_dropMark?_iff]
        exact fun h => h.trans (List.prefix_append ..)
    simp only [List.cons_append] at hlead ih ⊢
    rw [fromMark?, fromMark?, hlead]
    split
    next => rfl
    next => exact ih

theorem ne_nil_of_fromMark? {mark cs found : List Char} (hmark : mark ≠ [])
    (h : fromMark? mark cs = some found) : found ≠ [] := by
  induction cs with
  | nil => simp [fromMark?, hmark] at h
  | cons c cs ih =>
    rw [fromMark?] at h
    split at h
    · simp [← Option.some.inj h]
    · exact ih h

end Text

def sharedCode (reason : String) : String := "validator." ++ reason

namespace Context

variable {ctx : Context} {p reason code locale : String} {params : Table Value}

def usedLocale (ctx : Context) : String := (Text.nonempty? ctx.locale).getD ctx.defaultLocale

def declared? (ctx : Context) (locale code : String) : Option String :=
  (ctx.catalogs.get? locale).bind (·.get? code)

def ownTemplate? (ctx : Context) (code : String) : Option String :=
  (ctx.declared? ctx.usedLocale code).or (ctx.declared? ctx.defaultLocale code)

def Undeclared (ctx : Context) (code : String) : Prop :=
  ∀ e ∈ ctx.catalogs, e.2.get? code = none

def Says (ctx : Context) (code : String) (params : Table Value) (message : String) : Prop :=
  ∃ template, ctx.ownTemplate? code = some template ∧
    ∀ pieces, template = Template.written pieces → message = Template.filled params pieces

theorem declared?_of_undeclared (h : ctx.Undeclared code) (locale : String) :
    ctx.declared? locale code = none := by
  unfold declared?
  cases hcatalog : ctx.catalogs.get? locale with
  | none => rfl
  | some catalog => exact h _ (Table.mem_of_get?_eq_some hcatalog)

theorem template?_eq (ctx : Context) (code locale : String) : ctx.template? code locale =
    (ctx.declared? locale code).or ((sharedCode? code).bind (ctx.declared? locale)) := by
  unfold template? declared?
  cases ctx.catalogs.get? locale with
  | none => cases sharedCode? code <;> rfl
  | some catalog =>
    dsimp only [Option.getD_some, Option.bind_some]
    cases catalog.get? code with
    | some template => rfl
    | none => cases sharedCode? code <;> rfl

theorem translate_eq (ctx : Context) (code : String) (params : Table Value) :
    ctx.translate code params = (((ctx.template? code ctx.usedLocale).or
      (ctx.template? code ctx.defaultLocale)).map (Template.render params)).getD code := by
  unfold translate usedLocale
  dsimp only
  cases ctx.template? code ((Text.nonempty? ctx.locale).getD ctx.defaultLocale) with
  | some template => rfl
  | none => cases ctx.template? code ctx.defaultLocale <;> rfl

theorem sharedCode?_prefixed (hp : isInternalCode p = false) (reason : String) :
    sharedCode? (p ++ sharedCode reason) = some (String.ofList
      ((Text.fromMark? "validator.".toList p.toList).getD [] ++ (sharedCode reason).toList)) := by
  have hreason : (sharedCode reason).toList = "validator.".toList ++ reason.toList :=
    String.toList_append
  have hinternal : isInternalCode (p ++ sharedCode reason) = false :=
    isInternalCode_append hp hreason
  have hmark := @Text.fromMark?_append 'v' "alidator.".toList (by decide) p.toList reason.toList
  rw [sharedCode?, hinternal, String.toList_append, hreason]
  exact congrArg (Option.map String.ofList) hmark

theorem template?_prefixed (hp : isInternalCode p = false)
    (hmark : Text.mentions p "validator." = false) (h : ctx.Undeclared (p ++ sharedCode reason))
    (locale : String) : ctx.template? (p ++ sharedCode reason) locale =
      ctx.declared? locale (sharedCode reason) := by
  have hnone : Text.fromMark? "validator.".toList p.toList = none := by
    simpa [Text.mentions, Text.hasMark] using hmark
  rw [template?_eq, declared?_of_undeclared h, sharedCode?_prefixed hp, hnone]
  simp

theorem template?_shared (ctx : Context) (reason locale : String) :
    ctx.template? (sharedCode reason) locale = ctx.declared? locale (sharedCode reason) := by
  have hshared := sharedCode?_prefixed (p := "") (by decide) reason
  rw [String.empty_append] at hshared
  rw [template?_eq, hshared]
  cases hdeclared : ctx.declared? locale (sharedCode reason) <;> simp [Text.fromMark?, hdeclared]

theorem says_translate (params : Table Value)
    (h : ctx.declared? ctx.defaultLocale (sharedCode reason) ≠ none) :
    ctx.Says (sharedCode reason) params (ctx.translate (sharedCode reason) params) := by
  obtain ⟨template, htemplate⟩ := Option.ne_none_iff_exists'.mp h
  have hown : ∃ own, ctx.ownTemplate? (sharedCode reason) = some own := by
    unfold ownTemplate?
    rw [htemplate]
    cases ctx.declared? ctx.usedLocale (sharedCode reason) <;> exact ⟨_, rfl⟩
  obtain ⟨own, hown⟩ := hown
  refine ⟨own, hown, ?_⟩
  rintro pieces rfl
  rw [ownTemplate?] at hown
  rw [translate_eq, template?_shared, template?_shared, hown, ← Template.render_written]
  rfl

def silent (code : String) : Context := { catalogs := [("en", [(code, "")])] }

theorem undeclared_silent {other : String} (h : code ≠ other) : (silent code).Undeclared other := by
  simp [Undeclared, silent, Table.get?, h]

theorem declared?_silent (code : String) :
    (silent code).declared? (silent code).defaultLocale code = some "" := by
  simp [declared?, silent, Table.get?]

theorem translate_shared_silent (reason : String) :
    (silent (sharedCode reason)).translate (sharedCode reason) [] = "" := by
  have hused : (silent (sharedCode reason)).usedLocale = "en" := rfl
  rw [translate_eq, template?_shared, template?_shared, hused]
  exact congrArg (fun t => ((Option.or t t).map (Template.render [])).getD _)
    (declared?_silent (sharedCode reason))

theorem append_ne_of_mentions (hmark : Text.mentions p "validator." = true) (code : String) :
    code ≠ p ++ code := by
  intro heq
  have hlength := congrArg String.length heq
  rw [String.length_append] at hlength
  obtain rfl : p = "" := String.length_eq_zero_iff.mp (by omega)
  cases hmark

theorem translate_silent (hp : isInternalCode p = false)
    (hmark : Text.mentions p "validator." = true) (reason : String) :
    (silent (sharedCode reason)).translate (p ++ sharedCode reason) [] =
      p ++ sharedCode reason := by
  obtain ⟨found, hfound⟩ := Option.isSome_iff_exists.mp
    (show (Text.fromMark? "validator.".toList p.toList).isSome = true from hmark)
  have hlonger : sharedCode reason ≠ String.ofList (found ++ (sharedCode reason).toList) := by
    intro heq
    have hlist := congrArg String.toList heq
    rw [String.toList_ofList] at hlist
    exact Text.ne_nil_of_fromMark? (by decide) hfound (List.self_eq_append_left.mp hlist)
  have htemplate : ∀ locale, (silent (sharedCode reason)).template?
      (p ++ sharedCode reason) locale = none := by
    intro locale
    have hown := declared?_of_undeclared (undeclared_silent (append_ne_of_mentions hmark
      (sharedCode reason))) locale
    rw [template?_eq, sharedCode?_prefixed hp, hfound, hown, Option.none_or, Option.bind_some]
    exact declared?_of_undeclared (undeclared_silent hlonger) locale
  rw [translate_eq, htemplate, htemplate]
  rfl

/-- A prefix changes no message exactly when it does not hold the mark itself. -/
theorem prefixed_message_iff {p : String} (hp : isInternalCode p = false) (reason : String) :
    (∀ (ctx : Context) (params : Table Value),
      ctx.declared? ctx.defaultLocale (sharedCode reason) ≠ none →
      ctx.Undeclared (p ++ sharedCode reason) →
      ctx.translate (p ++ sharedCode reason) params = ctx.translate (sharedCode reason) params ∧
        ctx.Says (sharedCode reason) params (ctx.translate (sharedCode reason) params)) ↔
    Text.mentions p "validator." = false := by
  constructor
  · intro h
    rw [Bool.eq_false_iff]
    intro hmark
    have hne := append_ne_of_mentions hmark (sharedCode reason)
    have hdeclared := declared?_silent (sharedCode reason)
    obtain ⟨heq, -⟩ := h (silent (sharedCode reason)) [] (by rw [hdeclared]; nofun)
      (undeclared_silent hne)
    -- the code as it stands is not the empty message
    rw [translate_silent hp hmark, translate_shared_silent] at heq
    have hlength := congrArg String.length heq
    rw [sharedCode, String.length_append, String.length_append] at hlength
    have hmarked : "validator.".length = 10 := rfl
    have hempty : "".length = 0 := rfl
    omega
  · intro hmark ctx params hdeclared hundeclared
    refine ⟨?_, says_translate params hdeclared⟩
    obtain ⟨template, htemplate⟩ := Option.ne_none_iff_exists'.mp hdeclared
    rw [translate_eq, translate_eq, template?_prefixed hp hmark hundeclared,
      template?_prefixed hp hmark hundeclared, template?_shared, template?_shared, htemplate]
    cases ctx.declared? ctx.usedLocale (sharedCode reason) <;> rfl

def lengthPieces : List Template.Piece := [
  .hole "label".toList (by decide), .text " deve ter entre ".toList,
  .hole "min".toList (by decide), .text " e ".toList,
  .hole "max".toList (by decide), .text " caracteres".toList]

theorem request_length_message : isInternalCode "request." = false ∧
    Context.translate { locale := some "pt_BR" } "request.validator.invalid_string_length"
      [("label", .str "{min}"), ("min", .int 1)] =
        "{min} deve ter entre 1 e {max} caracteres" := by
  have hinternal : isInternalCode "request." = false := by decide
  obtain ⟨heq, template, htemplate, hfilled⟩ :=
    (prefixed_message_iff hinternal "invalid_string_length").mpr (by decide)
      { locale := some "pt_BR" } [("label", .str "{min}"), ("min", .int 1)] (by decide)
      (by unfold Undeclared; decide)
  have hpieces : template = Template.written lengthPieces :=
    Option.some.inj (htemplate.symm.trans (by cbv))
  exact ⟨hinternal, heq.trans ((hfilled _ hpieces).trans (by decide))⟩

theorem doubled_mark_untranslated : isInternalCode "my_validator." = false ∧
    Context.Undeclared {} "my_validator.validator.empty_info" ∧
    Context.translate {} "validator.empty_info" [("label", .str "Name")] =
      "Name must not be empty" ∧
    Context.translate {} "my_validator.validator.empty_info" [("label", .str "Name")] =
      "my_validator.validator.empty_info" := by
  refine ⟨by decide, by unfold Undeclared; decide, ?_, ?_⟩
  · decide
  · decide

end Context

end FieldRules
