import FieldRules.Proofs.Filter.DigitLimit
import FieldRules.Proofs.Filter.EnumBinding
import FieldRules.Proofs.Filter.LikePattern
import FieldRules.Proofs.Placeholder.Series

namespace FieldRules.Filter

inductive Operator where
  | range
  | compare (c : Comparator)
  | equal (negated : Bool)
  | among (negated : Bool)
  | like
  | literal (truth : Bool)
  deriving DecidableEq, Repr

inductive Writes (column : String) : Operator → List String → String → Prop
  | between (p q : String) :
      Writes column .range [p, q] (column ++ " " ++ ("BETWEEN " ++ p ++ " AND " ++ q))
  | enclosed (p q low high : String) :
      Writes column .range [p, q] (p ++ " <= " ++ low ++ " AND " ++ q ++ " >= " ++ high)
  | compare (c : Comparator) (p : String) :
      Writes column (.compare c) [p] (column ++ " " ++ (c.text ++ " " ++ p))
  | equal (negated : Bool) (p : String) :
      Writes column (.equal negated) [p]
        (column ++ " " ++ ((if negated then "<>" else "=") ++ " " ++ p))
  | among (negated : Bool) (p : String) :
      Writes column (.among negated) [p]
        (column ++ " " ++ ((if negated then "NOT IN" else "IN") ++ " (" ++ p ++ ")"))
  | like (p : String) :
      Writes column .like [p]
        ("UPPER(UNACCENT(" ++ column ++ "))" ++ " " ++ ("LIKE UPPER(UNACCENT(" ++ p ++ "))"))
  | literal (truth : Bool) :
      Writes column (.literal truth) [] (column ++ " = " ++ if truth then "true" else "false")

def Operator.keyword : Operator → String
  | .range => "BETWEEN"
  | .compare c => c.text
  | .equal negated => if negated then "<>" else "="
  | .among negated => if negated then "NOT" else "IN"
  | .like => "LIKE"
  | .literal truth => if truth then "true" else "false"

def Operator.ofKeyword? : String → Option Operator
  | "BETWEEN" => some .range
  | "<=" => some (.compare .atMost)
  | ">=" => some (.compare .atLeast)
  | "<" => some (.compare .below)
  | ">" => some (.compare .above)
  | "=" => some (.equal false)
  | "<>" => some (.equal true)
  | "IN" => some (.among false)
  | "NOT" => some (.among true)
  | "LIKE" => some .like
  | "true" => some (.literal true)
  | "false" => some (.literal false)
  | _ => none

variable {limit : Numeral.DigitLimit} {spec : RuleSpec} {column p q s : String}
  {o o' : Operator} {ps texts : List String} {n n' : ParamNames} {fs : List Fragment} {t : Test}

theorem Operator.ofKeyword?_keyword (o : Operator) : ofKeyword? o.keyword = some o := by
  cases o with
  | compare c => cases c <;> rfl
  | equal negated => cases negated <;> rfl
  | among negated => cases negated <;> rfl
  | literal truth => cases truth <;> rfl
  | _ => rfl

theorem Operator.keyword_injective (h : o.keyword = o'.keyword) : o = o' := by
  have hsame := congrArg ofKeyword? h
  rw [ofKeyword?_keyword, ofKeyword?_keyword] at hsame
  exact Option.some.inj hsame

namespace Writes

theorem range_of_pair (h : Writes column o [p, q] s) : o = .range := by
  cases h <;> rfl

theorem literal_of_nil (h : Writes column o [] s) :
    ∃ truth, o = .literal truth ∧ s = column ++ " = " ++ if truth then "true" else "false" := by
  cases h with
  | literal truth => exact ⟨truth, rfl, rfl⟩

theorem cases_of_single (h : Writes column o [p] s) :
    (o = .like ∧ column.toList.length + p.toList.length + 40 ≤ s.toList.length) ∨
      s.toList.length ≤ column.toList.length + p.toList.length + 12 ∧ ' ' ∉ o.keyword.toList ∧
        ∃ rest, s.toList = column.toList ++ ' ' :: (o.keyword.toList ++ ' ' :: rest) := by
  cases h with
  | compare c p =>
    cases c <;> exact .inr ⟨by simp [Comparator.text]; omega, by decide, p.toList,
      by simp [Operator.keyword, Comparator.text]⟩
  | equal negated p =>
    cases negated <;> exact .inr ⟨by simp; omega, by decide, p.toList, by simp [Operator.keyword]⟩
  | among negated p =>
    cases negated
    · exact .inr ⟨by simp; omega, by decide, ("(" ++ p ++ ")").toList, by simp [Operator.keyword]⟩
    · exact .inr ⟨by simp; omega, by decide, ("IN (" ++ p ++ ")").toList,
        by simp [Operator.keyword]⟩
  | like p => exact .inl ⟨rfl, by simp; omega⟩

theorem unique_of_single (h : Writes column o [p] s) (h' : Writes column o' [p] s) : o = o' := by
  rcases h.cases_of_single with ⟨rfl, hlong⟩ | ⟨hshort, hword, rest, hs⟩
  · rcases h'.cases_of_single with ⟨rfl, -⟩ | ⟨hshort, -, -⟩
    · rfl
    · omega
  · rcases h'.cases_of_single with ⟨rfl, hlong⟩ | ⟨-, hword', rest', hs'⟩
    · omega
    · obtain ⟨-, hrest⟩ := List.cons.inj (List.append_cancel_left (hs.symm.trans hs'))
      obtain ⟨hsame, -⟩ := Text.cut_unique hword hword' hrest
      exact Operator.keyword_injective (String.toList_inj.mp hsame)

theorem unique (h : Writes column o ps s) (h' : Writes column o' ps s) : o = o' := by
  cases ps with
  | nil =>
    obtain ⟨truth, rfl, hs⟩ := h.literal_of_nil
    obtain ⟨truth', rfl, hs'⟩ := h'.literal_of_nil
    have hlist := congrArg String.toList (hs.symm.trans hs')
    cases truth <;> cases truth' <;> simp_all
  | cons p ps =>
    cases ps with
    | nil => exact h.unique_of_single h'
    | cons q ps =>
      cases ps with
      | nil => exact h.range_of_pair.trans h'.range_of_pair.symm
      | cons _ _ => cases h

end Writes

def Test.operator : Test → Operator
  | between .. => .range
  | compare c _ => .compare c
  | equal negated _ => .equal negated
  | among negated _ => .among negated
  | like _ => .like

theorem Test.writes (column p q : String) (t : Test) :
    Writes column t.operator (Table.names (t.params p q))
      (t.leftSide column ++ " " ++ t.rightSide p q) := by
  cases t with
  | between low high => exact .between p q
  | compare c v => exact .compare c p
  | equal negated v => exact .equal negated p
  | among negated vs => exact .among negated p
  | like pattern => exact .like p

theorem writes_of_fragment {f : Fragment} (h : t.fragment spec column p q = .ok f) :
    Writes column t.operator f.names f.expression := by
  obtain ⟨op, hop, rfl⟩ := Outcome.map_eq_ok.mp h
  unfold Test.operation at hop
  split at hop
  · obtain ⟨⟨low, high⟩, -, rfl⟩ := Outcome.map_eq_ok.mp hop
    exact .enclosed p q low high
  · obtain rfl := Except.ok.inj hop
    exact Test.writes column p q _

def IsSingle (v : Value) : Prop := ∀ vs, v ≠ .list vs

inductive Allowed (spec : RuleSpec) (texts : List String) : Test → Prop
  | between {low high : Value} : flag spec.rangeAllowed = true → IsSingle low → IsSingle high →
      Allowed spec texts (.between low high)
  | compare {c : Comparator} {v : Value} : c.allowed spec = true → IsSingle v →
      Allowed spec texts (.compare c v)
  | equal {negated : Bool} {v : Value} : (negated = true → flag spec.negationAllowed = true) →
      IsSingle v → Allowed spec texts (.equal negated v)
  | among {negated : Bool} {vs : List Value} :
      (negated = true → flag spec.negationAllowed = true) → vs.length ≤ texts.length →
        Allowed spec texts (.among negated vs)
  | like {ends : Bool × Bool} {item : String} : wildcardEnds spec.wildcard = .ok ends →
      item ∈ texts → (carriesFront ends item.toList || carriesBack ends item.toList) = true →
        Allowed spec texts (.like (patternOf ends item.toList))

theorem isSingle_of_boundText {v : Value} (h : boundText limit spec s = .ok v) : IsSingle v := by
  intro vs
  rintro rfl
  unfold boundText at h
  split at h
  · cases h
  · split at h
    · split at h
      · obtain ⟨n, -, hn⟩ := Outcome.map_eq_ok.mp h
        cases hn
      · cases h
    · split at h <;> cases h
    · cases h

theorem allowed_of_found {single : Bool} {item : String} {m : Match}
    (hm : Found spec single item.toList m) (hitem : item ∈ texts)
    (ht : m.test limit spec = .ok t) : Allowed spec texts t := by
  cases hm with
  | range hrange _ =>
    simp only [Match.test] at ht
    split at ht
    next low high hlow hhigh =>
      obtain rfl := Except.ok.inj ht
      exact .between hrange (isSingle_of_boundText hlow) (isSingle_of_boundText hhigh)
    · cases ht
    · cases ht
  | compare hallowed _ =>
    obtain ⟨v, hv, rfl⟩ := Outcome.map_eq_ok.mp ht
    exact .compare hallowed (isSingle_of_boundText hv)
  | negation _ hallowed _ =>
    obtain ⟨v, hv, rfl⟩ := Outcome.map_eq_ok.mp ht
    exact .equal (fun _ => hallowed) (isSingle_of_boundText hv)
  | wildcard hends hm =>
    obtain rfl := Except.ok.inj ht
    rw [wildcard?_eq] at hm
    split at hm
    next hcarries =>
      cases hm
      exact .like hends hitem hcarries
    next => cases hm

theorem negatedItems_fst (items : List String) (h : (negatedItems spec items).1 = true) :
    flag spec.negationAllowed = true := by
  cases items with
  | nil => cases h
  | cons item rest =>
    rw [negatedItems] at h
    split at h
    next hflag _ => exact hflag
    next => cases h

theorem length_negatedItems (items : List String) :
    (negatedItems spec items).2.length = items.length := by
  cases items with
  | nil => rfl
  | cons item rest =>
    rw [negatedItems]
    split <;> rfl

theorem allowed_of_equality {asList : Bool} {items : List String}
    (h : equality limit spec asList items = .ok t) (hlength : items.length ≤ texts.length) :
    Allowed spec texts t := by
  unfold equality at h
  cases hitems : negatedItems spec items with
  | mk negated bare =>
    have hnegation : negated = true → flag spec.negationAllowed = true := by
      intro hmark
      exact negatedItems_fst items (by rw [hitems, hmark])
    have hbare : bare.length = items.length := by
      rw [← length_negatedItems items, hitems]
    rw [hitems] at h
    dsimp only at h
    split at h
    · obtain ⟨v, hv, rfl⟩ := Outcome.map_eq_ok.mp h
      exact .equal hnegation (isSingle_of_boundText hv)
    · obtain ⟨vs, hvs, rfl⟩ := Outcome.map_eq_ok.mp h
      have hvs := length_of_boundAll hvs
      exact .among hnegation (by omega)

def Tells (spec : RuleSpec) (column : String) (texts : List String) (f : Fragment) : Prop :=
  ∃ t p q, Allowed spec texts t ∧ Test.fragment spec column p q t = .ok f

theorem tells_of_testFragment {k : Nat} {test : Except Fault Test} {f : Fragment}
    (h : testFragment spec column n k test = (.ok f, n'))
    (hallowed : ∀ t, test = .ok t → Allowed spec texts t) : Tells spec column texts f := by
  obtain ⟨t, ht, hf⟩ := Outcome.bind_eq_ok.mp (Prod.mk.inj h).1
  exact ⟨t, n.name 0, n.name 1, hallowed t ht, hf⟩

theorem tells_of_operatorFragments {single : Bool} {items bucket : List String}
    (h : operatorFragments limit spec column single items n = (.ok (fs, bucket), n'))
    (hsub : items ⊆ texts) :
    (∀ f ∈ fs, Tells spec column texts f) ∧ fs.length + bucket.length = items.length := by
  induction items generalizing n fs bucket with
  | nil =>
    cases h
    simp
  | cons item rest ih =>
    obtain ⟨hitem, hrest⟩ := List.cons_subset.mp hsub
    rcases operatorFragments_cons h with ⟨left, rfl, hleft⟩ | ⟨m, f, gs, n₁, hm, hf, rfl, hgs⟩
    · obtain ⟨htells, hlength⟩ := ih hleft hrest
      exact ⟨htells, by simp only [List.length_cons]; omega⟩
    · obtain ⟨htells, hlength⟩ := ih hgs hrest
      have hhead : Tells spec column texts f :=
        tells_of_testFragment hf fun t ht => allowed_of_found (found_of_find? hm) hitem ht
      exact ⟨List.forall_mem_cons.mpr ⟨hhead, htells⟩, by simp only [List.length_cons]; omega⟩

theorem tells_of_itemFragments (h : itemFragments limit spec column texts n = (.ok fs, n')) :
    (∀ f ∈ fs, Tells spec column texts f) ∧ fs.length ≤ texts.length := by
  obtain ⟨gs, bucket, n₁, hops, hlast⟩ := itemFragments_eq_ok h
  obtain ⟨htells, hlength⟩ := tells_of_operatorFragments hops (List.Subset.refl texts)
  rcases hlast with ⟨-, rfl, -⟩ | ⟨hne, f, rfl, hf⟩
  · exact ⟨htells, by omega⟩
  · have hpos := List.length_pos_iff.mpr hne
    have htold : Tells spec column texts f :=
      tells_of_testFragment hf fun t ht => allowed_of_equality ht (by omega)
    refine ⟨?_, by simp only [List.length_append, List.length_singleton]; omega⟩
    intro g hg
    rcases List.mem_append.mp hg with hg | hg
    · exact htells g hg
    · exact List.mem_singleton.mp hg ▸ htold

inductive WildcardPermits : Option Value → Bool × Bool → Prop
  | undeclared : WildcardPermits none (true, true)
  | flag (b : Bool) : WildcardPermits (some (.bool b)) (b, b)
  | pair {v front back : Value} : v.elements? = some [front, back] →
      WildcardPermits (some v) (front.truthy, back.truthy)

structure Ordered (spec : RuleSpec) : Prop where
  noBoolean : spec.base? ≠ some .boolean
  noPlainText : spec.isPlainString spec.type = false
  noEnum : spec.hasEnum = false

def Comparator.declared (spec : RuleSpec) : Comparator → Option Bool
  | atMost => spec.lessAllowed
  | below => spec.lessAllowed
  | atLeast => spec.greaterAllowed
  | above => spec.greaterAllowed

inductive Granted (spec : RuleSpec) (texts : List String) (f : Fragment) : Operator → Prop
  | range : Ordered spec → spec.rangeAllowed ≠ some false → Granted spec texts f .range
  | compare {c : Comparator} : Ordered spec → c.declared spec ≠ some false →
      Granted spec texts f (.compare c)
  | equal {negated : Bool} :
      (negated = true → spec.base? ≠ some .boolean ∧ spec.negationAllowed ≠ some false) →
        Granted spec texts f (.equal negated)
  | among {negated : Bool} :
      (negated = true → spec.base? ≠ some .boolean ∧ spec.negationAllowed ≠ some false) →
        Granted spec texts f (.among negated)
  | like {ends : Bool × Bool} {item : String} : spec.isPlainString spec.type = true →
      WildcardPermits spec.wildcard ends → item ∈ texts →
      (carriesFront ends item.toList || carriesBack ends item.toList) = true →
      f.params.map Prod.snd = [.str (String.ofList (patternOf ends item.toList))] →
        Granted spec texts f .like
  | literal {truth : Bool} : spec.base? = some .boolean → Granted spec texts f (.literal truth)

def Several (fs : List Fragment) : Prop :=
  1 < fs.length ∨ ∃ f ∈ fs, ∃ p vs, (p, Value.list vs) ∈ f.params ∧ 1 < vs.length

theorem ne_false_of_flag {b : Option Bool} (h : flag (some (b.getD true)) = true) :
    b ≠ some false := by
  rintro rfl
  cases h

theorem ordered_of_flag {b : Option Bool}
    (h : flag (if spec.base? == some .boolean || spec.isPlainString spec.type then none
      else some (b.getD true)) = true) :
    (spec.base? ≠ some .boolean ∧ spec.isPlainString spec.type = false) ∧ b ≠ some false := by
  split at h
  · cases h
  next hordered =>
    simp only [Bool.or_eq_true, beq_iff_eq, not_or, Bool.not_eq_true] at hordered
    exact ⟨hordered, ne_false_of_flag h⟩

theorem listAllowed_of_prepared (h : flag spec.prepared.listAllowed = true) :
    spec.base? ≠ some .boolean ∧ spec.listAllowed ≠ some false := by
  change flag (if spec.base? == some .boolean then none
    else some (spec.listAllowed.getD true)) = true at h
  split at h
  · cases h
  next hboolean => exact ⟨by simpa using hboolean, ne_false_of_flag h⟩

theorem permits_of_pair {v : Value} {ends : Bool × Bool}
    (hends : wildcardEnds (some (RuleSpec.wildcardPair (some v))) = .ok ends)
    (hsome : ends ≠ (false, false)) : WildcardPermits (some v) ends := by
  by_cases hflag : ∃ b, v = .bool b
  · obtain ⟨b, rfl⟩ := hflag
    obtain rfl := Except.ok.inj hends
    exact .flag b
  · have hpair : RuleSpec.wildcardPair (some v) = v := by
      cases v with
      | bool b => exact absurd ⟨b, rfl⟩ hflag
      | _ => rfl
    rw [hpair] at hends
    unfold wildcardEnds at hends
    split at hends
    · contradiction
    next b hb => exact absurd ⟨b, Option.some.inj hb⟩ hflag
    next w _ hw =>
      obtain rfl := Option.some.inj hw
      split at hends
      · exact absurd (Except.ok.inj hends).symm hsome
      · split at hends
        next helements =>
          obtain rfl := Except.ok.inj hends
          exact .pair helements
        · cases hends
        · cases hends

theorem permits_of_prepared {ends : Bool × Bool} {cs : List Char}
    (hends : wildcardEnds spec.prepared.wildcard = .ok ends)
    (hcarries : (carriesFront ends cs || carriesBack ends cs) = true) :
    spec.isPlainString spec.type = true ∧ WildcardPermits spec.wildcard ends := by
  have hsome : ends ≠ (false, false) := by
    rintro rfl
    cases hcarries
  cases hplain : spec.isPlainString spec.type with
  | false =>
    rw [RuleSpec.wildcard_prepared_of_not_plain hplain] at hends
    exact absurd (Except.ok.inj hends).symm hsome
  | true =>
    have hwildcard : spec.prepared.wildcard = some (RuleSpec.wildcardPair spec.wildcard) := by
      simp [RuleSpec.prepared, hplain]
    rw [hwildcard] at hends
    refine ⟨rfl, ?_⟩
    cases hdeclared : spec.wildcard with
    | none =>
      rw [hdeclared] at hends
      obtain rfl := Except.ok.inj hends
      exact .undeclared
    | some v =>
      rw [hdeclared] at hends
      exact permits_of_pair hends hsome

variable {f : Fragment}

theorem granted_of_allowed (hbase : spec.base? ≠ some .boolean)
    (h : t.fragment spec.prepared column p q = .ok f)
    (hallowed : Allowed spec.prepared texts t)
    (henum : spec.hasEnum = true → ∃ negated, t.operator = .among negated) :
    Granted spec texts f t.operator := by
  have hnegation {negated : Bool} (hflag : negated = true → flag spec.prepared.negationAllowed = true)
      (hmark : negated = true) : spec.base? ≠ some .boolean ∧ spec.negationAllowed ≠ some false :=
    ⟨hbase, ne_false_of_flag (hflag hmark)⟩
  have hnone (hother : ∀ negated, t.operator ≠ .among negated) : spec.hasEnum = false := by
    cases hhas : spec.hasEnum with
    | false => rfl
    | true =>
      obtain ⟨negated, hamong⟩ := henum hhas
      exact absurd hamong (hother negated)
  cases hallowed with
  | between hrange _ _ =>
    obtain ⟨⟨hboolean, hplain⟩, hdeclared⟩ := ordered_of_flag hrange
    exact .range ⟨hboolean, hplain, hnone (by simp [Test.operator])⟩ hdeclared
  | @compare c v hcompare _ =>
    cases c
    all_goals
      obtain ⟨⟨hboolean, hplain⟩, hdeclared⟩ := ordered_of_flag hcompare
      exact .compare ⟨hboolean, hplain, hnone (by simp [Test.operator])⟩ hdeclared
  | equal hmark _ => exact .equal (hnegation hmark)
  | among hmark _ => exact .among (hnegation hmark)
  | like hends hitem hcarries =>
    obtain ⟨hplain, hpermits⟩ := permits_of_prepared hends hcarries
    refine .like hplain hpermits hitem hcarries ?_
    rw [Test.params_of_fragment h]
    rfl

theorem Allowed.length_le {vs : List Value} (h : Allowed spec texts t)
    (hm : (s, .list vs) ∈ t.params p q) : vs.length ≤ texts.length := by
  cases h with
  | between _ hlow hhigh =>
    simp only [Test.params, List.mem_cons, List.not_mem_nil, or_false, Prod.mk.injEq] at hm
    rcases hm with ⟨-, hm⟩ | ⟨-, hm⟩
    · exact absurd hm.symm (hlow vs)
    · exact absurd hm.symm (hhigh vs)
  | compare _ hv =>
    obtain ⟨-, hm⟩ := Prod.mk.inj (List.mem_singleton.mp hm)
    exact absurd hm.symm (hv vs)
  | equal _ hv =>
    obtain ⟨-, hm⟩ := Prod.mk.inj (List.mem_singleton.mp hm)
    exact absurd hm.symm (hv vs)
  | among _ hlength =>
    obtain ⟨-, hm⟩ := Prod.mk.inj (List.mem_singleton.mp hm)
    cases hm
    exact hlength
  | like =>
    obtain ⟨-, hm⟩ := Prod.mk.inj (List.mem_singleton.mp hm)
    cases hm

theorem several_items (htells : ∀ f ∈ fs, Tells spec column texts f)
    (hlength : fs.length ≤ texts.length) (h : Several fs) : 1 < texts.length := by
  rcases h with hmany | ⟨f, hf, s, vs, hm, hmany⟩
  · omega
  · obtain ⟨t, p, q, hallowed, hfragment⟩ := htells f hf
    rw [Test.params_of_fragment hfragment] at hm
    have := hallowed.length_le hm
    omega

theorem items_of_unlisted (h : flag spec.listAllowed = false) (s : String) :
    items spec (.str s) = .ok [s] := by
  simp only [items, Value.items?, h, Bool.not_false, if_true]
  rfl

theorem listAllowed_of_several (hitems : items spec (.str s) = .ok texts)
    (h : 1 < texts.length) : flag spec.listAllowed = true := by
  cases hlist : flag spec.listAllowed with
  | true => rfl
  | false =>
    rw [items_of_unlisted hlist] at hitems
    obtain rfl := Except.ok.inj hitems
    exact absurd h (by simp)

variable {r : Rule} {g : Option Grammar}

theorem among_of_equality {items : List String} (h : equality limit spec true items = .ok t) :
    ∃ negated vs, t = .among negated vs := by
  unfold equality at h
  split at h
  split at h
  · contradiction
  · obtain ⟨vs, -, rfl⟩ := Outcome.map_eq_ok.mp h
    exact ⟨_, vs, rfl⟩

theorem items_of_build (hr : Flagged r) (hboolean : r.spec.base? ≠ some .boolean)
    (h : build limit (r.prepare g) column (.str s) n = (.ok fs, n')) :
    ∃ texts, items r.spec.prepared (.str s) = .ok texts ∧ (texts = [] → fs = []) := by
  have hliteral : isLiteral (r.prepare g) = false := by
    rw [hr.isLiteral_prepare]
    simpa using hboolean
  rw [build, hliteral, if_neg Bool.false_ne_true, Rule.prepare_of_unprepared hr.unprepared] at h
  split at h
  · cases h
  next hitems =>
    cases h
    exact ⟨[], hitems, fun _ => rfl⟩
  next texts hne hitems => exact ⟨texts, hitems, fun hnil => absurd hnil hne⟩

theorem items_ne_nil_of_enum (henum : spec.hasEnum = true)
    (hitems : items spec (.str s) = .ok texts) : texts ≠ [] := by
  have hplain : isPlain spec = false := by simp [isPlain, henum]
  rw [items_of_str hplain] at hitems
  obtain rfl := Except.ok.inj hitems
  exact listItems_ne_nil spec s

theorem tells_of_build (hr : Flagged r) (hboolean : r.spec.base? ≠ some .boolean)
    (h : build limit (r.prepare g) column (.str s) n = (.ok fs, n')) :
    ∃ texts, items r.spec.prepared (.str s) = .ok texts ∧ fs.length ≤ texts.length ∧
      (∀ f ∈ fs, Tells r.spec.prepared column texts f) ∧
      (r.spec.hasEnum = true → ∃ f negated, fs = [f] ∧
        Writes column (.among negated) f.names f.expression) := by
  obtain ⟨texts, hitems, hnil⟩ := items_of_build hr hboolean h
  refine ⟨texts, hitems, ?_⟩
  by_cases hne : texts = []
  · obtain rfl := hnil hne
    refine ⟨Nat.zero_le _, by simp, fun henum => ?_⟩
    have hprepared : r.spec.prepared.hasEnum = true := henum
    exact absurd hne (items_ne_nil_of_enum hprepared hitems)
  · rw [hr.build_prepare hboolean limit g column hitems hne] at h
    split at h
    next henum =>
      obtain ⟨f, hf, rfl⟩ := Outcome.map_eq_ok.mp (Prod.mk.inj h).1
      obtain ⟨t, ht, hfragment⟩ := Outcome.bind_eq_ok.mp hf
      obtain ⟨negated, vs, rfl⟩ := among_of_equality ht
      refine ⟨List.length_pos_iff.mpr hne, ?_, fun _ => ⟨f, negated, rfl,
        writes_of_fragment hfragment⟩⟩
      rw [List.forall_mem_singleton]
      exact ⟨_, _, _, allowed_of_equality ht (Nat.le_refl _), hfragment⟩
    next henum =>
      obtain ⟨htells, hlength⟩ := tells_of_itemFragments h
      exact ⟨hlength, htells, fun hhas => absurd hhas henum⟩

theorem build_of_boolean (hr : Flagged r) (hboolean : r.spec.base? = some .boolean)
    (h : build limit (r.prepare g) column (.str s) n = (.ok fs, n')) :
    ∃ truth : Bool, fs = [⟨column ++ " = " ++ if truth then "true" else "false", []⟩] := by
  have hliteral : isLiteral (r.prepare g) = true := by
    rw [hr.isLiteral_prepare, hboolean]
    rfl
  rw [build, if_pos hliteral] at h
  cases h
  exact ⟨askedTruth (.str s), rfl⟩

/-- Preparing a rule grants its filters no operator that the declared rule refuses. -/
theorem prepared_operators_granted (limit : Numeral.DigitLimit) (g : Option Grammar) (r : Rule)
    (hr : Flagged r) (column s : String) (before after : ParamNames) (fs : List Fragment)
    (h : build limit (r.prepare g) column (.str s) before = (.ok fs, after)) :
    ∃ texts, items (r.prepare g).spec (.str s) = .ok texts ∧
      (∀ f ∈ fs, (∃ o, Writes column o f.names f.expression) ∧
        ∀ o, Writes column o f.names f.expression → Granted r.spec texts f o) ∧
      (Several fs → r.spec.base? ≠ some .boolean ∧ r.spec.listAllowed ≠ some false) ∧
      (r.spec.base? ≠ some .boolean → r.spec.hasEnum = true →
        ∃ f negated, fs = [f] ∧ Writes column (.among negated) f.names f.expression) ∧
      (r.spec.base? = some .boolean →
        ∃ f truth, fs = [f] ∧ Writes column (.literal truth) f.names f.expression) := by
  have hspec : (r.prepare g).spec = r.spec.prepared := by
    rw [Rule.prepare_of_unprepared hr.unprepared]
  rw [hspec]
  by_cases hboolean : r.spec.base? = some .boolean
  · obtain ⟨truth, rfl⟩ := build_of_boolean hr hboolean h
    have hlist : flag r.spec.prepared.listAllowed = false := by
      simp [RuleSpec.prepared, hboolean, flag]
    have hwrites : Writes column (.literal truth) [] _ := .literal truth
    refine ⟨[s], items_of_unlisted hlist s, ?_, ?_, fun hno => absurd hboolean hno,
      fun _ => ⟨_, truth, rfl, hwrites⟩⟩
    · rw [List.forall_mem_singleton]
      refine ⟨⟨_, hwrites⟩, fun o ho => ?_⟩
      rw [ho.unique hwrites]
      exact .literal hboolean
    · rintro (hmany | ⟨f, hf, p, vs, hm, -⟩)
      · exact absurd hmany (by simp)
      · obtain rfl := List.mem_singleton.mp hf
        cases hm
  · obtain ⟨texts, hitems, hlength, htells, henum⟩ := tells_of_build hr hboolean h
    refine ⟨texts, hitems, fun f hf => ?_, fun hseveral => ?_, fun _ => henum,
      fun hyes => absurd hyes hboolean⟩
    · obtain ⟨t, p, q, hallowed, hfragment⟩ := htells f hf
      have hwrites := writes_of_fragment hfragment
      refine ⟨⟨_, hwrites⟩, fun o ho => ?_⟩
      rw [ho.unique hwrites]
      refine granted_of_allowed hboolean hfragment hallowed fun hhas => ?_
      obtain ⟨f', negated, rfl, hamong⟩ := henum hhas
      obtain rfl := List.mem_singleton.mp hf
      exact ⟨negated, hwrites.unique hamong⟩
    · exact listAllowed_of_prepared
        (listAllowed_of_several hitems (several_items htells hlength hseveral))

def boundedAge : Rule :=
  { spec := { type := some (.known .integer), rangeAllowed := some false
              lessAllowed := some false } }

theorem boundedAge_operators : Flagged boundedAge ∧
    ∃ fs after, build none (boundedAge.prepare none) "t.age" (.str ">=3,1|2,!7,<9")
        (ParamNames.ofColumn "t.age") = (.ok fs, after) ∧
      fs.map Fragment.expression = ["t.age >= :tage1", "t.age IN (:tage2)"] ∧
      (∀ f ∈ fs, ¬Writes "t.age" .range f.names f.expression ∧
        ¬Writes "t.age" (.compare .below) f.names f.expression) := by
  have hr : Flagged boundedAge := ⟨⟨_, rfl⟩, rfl, rfl, rfl⟩
  have hread : (build none (boundedAge.prepare none) "t.age" (.str ">=3,1|2,!7,<9")
      (ParamNames.ofColumn "t.age")).1.toOption.map (List.map Fragment.expression) =
        some ["t.age >= :tage1", "t.age IN (:tage2)"] := by decide +kernel
  cases hb : build none (boundedAge.prepare none) "t.age" (.str ">=3,1|2,!7,<9")
      (ParamNames.ofColumn "t.age") with
  | mk result after =>
    rw [hb] at hread
    cases result with
    | error e => cases hread
    | ok fs =>
      obtain ⟨texts, -, hgranted, -, -, -⟩ := prepared_operators_granted none none boundedAge hr
        "t.age" ">=3,1|2,!7,<9" (ParamNames.ofColumn "t.age") after fs hb
      refine ⟨hr, fs, after, rfl, Option.some.inj hread, fun f hf => ⟨fun hw => ?_, fun hw => ?_⟩⟩
      · cases (hgranted f hf).2 _ hw with
        | range _ hno => exact hno rfl
      · cases (hgranted f hf).2 _ hw with
        | compare _ hno => exact hno rfl

end FieldRules.Filter
