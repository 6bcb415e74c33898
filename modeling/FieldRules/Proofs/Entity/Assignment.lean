import FieldRules.Proofs.Entity.Inheritance

namespace FieldRules

theorem Table.get?_merge_ofEntries {α : Type} (t u : Table α) (name : String) :
    (t.merge u).get? name = ((Table.ofEntries u).get? name).or (t.get? name) := by
  rw [← merge_ofEntries]
  have hnodup : (names (ofEntries u)).Nodup := nodup_names_merge (t := []) List.nodup_nil u
  exact get?_merge t hnodup name

namespace World

variable {w v u : World} {s : Subject} {e name : String} {x : Value} {entity : Entity}
  {data low high ws : Table Value} {fault : Fault} {why : Misdeclaration}
  {target : String → String}

structure Wrote (w v : World) (e : String) (ws : Table Value) : Prop where
  attributes : ∀ name, v.attribute? (.entity e) name =
    ((Table.ofEntries ws).get? name).or (w.attribute? (.entity e) name)
  others : ∀ other, other ≠ e → v.entities.get? other = w.entities.get? other
  kind : (v.entities.get? e).map Entity.className = (w.entities.get? e).map Entity.className
  classes : v.classes = w.classes
  registered : v.registered = w.registered

theorem Wrote.refl (w : World) (e : String) : Wrote w w e [] where
  attributes _ := Option.none_or.symm
  others _ _ := rfl
  kind := rfl
  classes := rfl
  registered := rfl

theorem Wrote.trans (hlow : Wrote w v e low) (hhigh : Wrote v u e high) :
    Wrote w u e (low ++ high) where
  attributes name := by
    have hentries : Table.ofEntries (low ++ high) = (Table.ofEntries low).merge high :=
      Table.merge_append [] low high
    rw [hhigh.attributes, hlow.attributes, hentries, Table.get?_merge_ofEntries, Option.or_assoc]
  others other hne := (hhigh.others other hne).trans (hlow.others other hne)
  kind := hhigh.kind.trans hlow.kind
  classes := hhigh.classes.trans hlow.classes
  registered := hhigh.registered.trans hlow.registered

theorem wrote_write (he : w.entities.get? e = some entity) (target : String) (x : Value) :
    Wrote w { w with toStore := w.toStore.write (.entity e) target x } e [(target, x)] := by
  have hwrite : w.toStore.write (.entity e) target x = { w.toStore with
      entities := w.entities.put e ⟨entity.className, entity.attributes.put target x⟩ } := by
    simp [Store.write, he]
  rw [hwrite]
  refine ⟨fun name => ?_, fun other hne => ?_, ?_, rfl, rfl⟩
  · by_cases htarget : target = name <;>
      simp [Store.attribute?, Store.subjectClass, Store.classAttribute?, Store.classOf,
        Table.get?_put, Table.ofEntries, Table.merge, Table.get?, Table.put, he, htarget]
  · simp [Table.get?_put, Ne.symm hne]
  · simp [Table.get?_put, he]

theorem Wrote.subjectClass_eq (h : Wrote w v e ws) (s : Subject) :
    v.subjectClass s = w.subjectClass s := by
  cases s with
  | classItself cls => simp [Store.subjectClass, Store.classOf, h.classes]
  | entity other =>
    by_cases hother : other = e
    · subst hother
      simp [Store.subjectClass, Store.classOf, h.classes, h.kind]
    · simp [Store.subjectClass, Store.classOf, h.classes, h.others other hother]

theorem Wrote.accessor_eq (h : Wrote w v e ws) (s : Subject) (name : String) :
    v.accessor s name = w.accessor s name := by
  unfold accessor accessorsOf accessors
  rw [h.subjectClass_eq, h.registered]

def Writable (w : World) (s : Subject) (name : String) : Prop :=
  ∃ a setter, w.accessor s name = .ok a ∧ a.setter = some setter

def Refused (w : World) (s : Subject) (name : String) (why : Misdeclaration) : Prop :=
  w.accessor s name = .error (.misdeclared why) ∨
    ∃ a, w.accessor s name = .ok a ∧ a.setter = none ∧ why = .readOnlyField (w.kindName s) name

theorem Wrote.writable (h : Wrote w v e ws) (hwritable : v.Writable s name) :
    w.Writable s name := by
  rwa [Writable, h.accessor_eq] at hwritable

theorem Wrote.refused (h : Wrote w v e ws) (hrefused : v.Refused s name why) :
    w.Refused s name why := by
  have hkind : v.kindName s = w.kindName s := by
    cases s with
    | classItself cls => rfl
    | entity other => exact congrArg EntityClass.name (h.subjectClass_eq (.entity other))
  rwa [Refused, h.accessor_eq, hkind] at hrefused

theorem Wrote.exists_entity (h : Wrote w v e ws) (he : w.entities.get? e = some entity) :
    ∃ entity', v.entities.get? e = some entity' := by
  have hkind := h.kind
  rw [he] at hkind
  obtain ⟨entity', hentity, -⟩ := Option.map_eq_some_iff.mp hkind
  exact ⟨entity', hentity⟩

theorem Wrote.unchanged_iff (h : Wrote w v e ws) :
    (∀ n, v.attribute? (.entity e) n = w.attribute? (.entity e) n) ↔
      ∀ n x, (Table.ofEntries ws).get? n = some x → w.attribute? (.entity e) n = some x := by
  constructor
  · intro hsame n x hx
    rw [← hsame n, h.attributes, hx, Option.some_or]
  · intro hwritten n
    rw [h.attributes]
    cases hx : (Table.ofEntries ws).get? n with
    | none => exact Option.none_or
    | some x => rw [Option.some_or, hwritten n x hx]

inductive Ran (s : Subject) : World → Table Value → World → Prop
  | nil (w : World) : Ran s w [] w
  | cons {w v : World} {name : String} {x : Value} {rest : Table Value} {a : Accessor}
      {setter : Store → Subject → Value → Except Fault Unit × Store} {store : Store}
      (ha : w.accessor s name = .ok a) (hsetter : a.setter = some setter)
      (hset : setter w.toStore s x = (.ok (), store))
      (hrest : Ran s { w with toStore := store } rest v) : Ran s w ((name, x) :: rest) v

/-- How setting a field fails: it has no accessor, it is read only, or its setter fails, and then
    what that setter did stays. -/
inductive Fails (w : World) (s : Subject) (name : String) (x : Value) : Fault → World → Prop
  | unknown {fault : Fault} (h : w.accessor s name = .error fault) : w.Fails s name x fault w
  | readOnly {a : Accessor} (ha : w.accessor s name = .ok a) (hsetter : a.setter = none) :
      w.Fails s name x (.misdeclared (.readOnlyField (w.kindName s) name)) w
  | raised {a : Accessor} {setter : Store → Subject → Value → Except Fault Unit × Store}
      {fault : Fault} {store : Store} (ha : w.accessor s name = .ok a)
      (hsetter : a.setter = some setter) (hset : setter w.toStore s x = (.error fault, store)) :
      w.Fails s name x fault { w with toStore := store }

theorem set_eq_ok (h : w.set s name x = (.ok (), v)) : ∃ a setter store,
    w.accessor s name = .ok a ∧ a.setter = some setter ∧
      setter w.toStore s x = (.ok (), store) ∧ v = { w with toStore := store } := by
  unfold set at h
  split at h
  next => cases h
  next a ha =>
    split at h
    next => cases h
    next setter hsetter =>
      obtain ⟨hresult, hstore⟩ := Prod.mk.inj h
      exact ⟨a, setter, _, ha, hsetter, Prod.ext hresult rfl, hstore.symm⟩

theorem fails_of_set (h : w.set s name x = (.error fault, v)) : w.Fails s name x fault v := by
  unfold set at h
  split at h
  next ha =>
    cases h
    exact .unknown ha
  next a ha =>
    split at h
    next hsetter =>
      cases h
      exact .readOnly ha hsetter
    next setter hsetter =>
      obtain ⟨hresult, rfl⟩ := Prod.mk.inj h
      exact .raised ha hsetter (Prod.ext hresult rfl)

def Ends (u : World) (s : Subject) (high : Table Value) (v : World) : Except Fault Unit → Prop
  | .ok () => high = [] ∧ v = u
  | .error fault => ∃ name x rest, high = (name, x) :: rest ∧ u.Fails s name x fault v

theorem assign_ran {r : Except Fault Unit} (h : w.assign s data = (r, v)) :
    ∃ low high u, data = low ++ high ∧ Ran s w low u ∧ u.Ends s high v r := by
  induction data generalizing w with
  | nil =>
    cases h
    exact ⟨[], [], _, rfl, .nil _, rfl, rfl⟩
  | cons entry data ih =>
    obtain ⟨name, x⟩ := entry
    rw [assign] at h
    split at h
    next fault w' hset =>
      cases h
      exact ⟨[], (name, x) :: data, _, rfl, .nil _, name, x, data, rfl, fails_of_set hset⟩
    next w' hset =>
      obtain ⟨a, setter, store, ha, hsetter, hstore, rfl⟩ := set_eq_ok hset
      obtain ⟨low, high, u, rfl, hran, hends⟩ := ih h
      exact ⟨(name, x) :: low, high, u, rfl, .cons ha hsetter hstore hran, hends⟩

theorem Ran.registered_eq (h : Ran s w low u) : u.registered = w.registered := by
  induction h with
  | nil => rfl
  | cons _ _ _ _ ih => exact ih

theorem Fails.registered_eq (h : w.Fails s name x fault v) : v.registered = w.registered := by
  cases h <;> rfl

def OnAttributes (w : World) (s : Subject) (target : String → String) : Prop :=
  ∀ n a, w.accessor s n = .ok a → a.IsAttribute (target n)

def writes (target : String → String) (data : Table Value) : Table Value :=
  data.map fun entry => (target entry.1, entry.2)

theorem writeAttribute_cases (target : String) (store : Store) (s : Subject) (x : Value) :
    Accessor.writeAttribute target store s x = (.ok (), store.write s target x) ∨
      ∃ fault, (∀ why, fault ≠ .misdeclared why) ∧
        Accessor.writeAttribute target store s x = (.error fault, store) := by
  unfold Accessor.writeAttribute
  split
  next fault hclosed =>
    refine .inr ⟨fault, ?_, rfl⟩
    rintro why rfl
    unfold Store.closed? at hclosed
    split at hclosed
    · cases s <;> cases hclosed
    · cases hclosed
  next => exact .inl rfl

theorem Wrote.onAttributes (h : Wrote w v e ws) (hon : w.OnAttributes s target) :
    v.OnAttributes s target := by
  intro n a ha
  rw [h.accessor_eq] at ha
  exact hon n a ha

theorem Ran.wrote (h : Ran (.entity e) w low u) (he : w.entities.get? e = some entity)
    (hon : w.OnAttributes (.entity e) target) :
    Wrote w u e (writes target low) ∧ ∀ n ∈ low.names, w.Writable (.entity e) n := by
  induction h generalizing entity with
  | nil w => exact ⟨.refl _ _, nofun⟩
  | @cons w v name x rest a setter store ha hsetter hset _ ih =>
    obtain rfl := (hon name a ha).setter setter hsetter
    obtain rfl : store = w.toStore.write (.entity e) (target name) x := by
      rcases writeAttribute_cases (target name) w.toStore (.entity e) x with hok | ⟨_, -, herror⟩
      · exact congrArg Prod.snd (hset.symm.trans hok)
      · cases hset.symm.trans herror
    have hstep := wrote_write he (target name) x
    obtain ⟨entity', he'⟩ := hstep.exists_entity he
    obtain ⟨hwrote, hwritable⟩ := ih he' (hstep.onAttributes hon)
    refine ⟨hstep.trans hwrote, List.forall_mem_cons.mpr ⟨⟨a, _, ha, hsetter⟩, ?_⟩⟩
    exact fun n hn => hstep.writable (hwritable n hn)

theorem Fails.refused (h : w.Fails s name x (.misdeclared why) v)
    (hon : w.OnAttributes s target) : w.Refused s name why ∧ v = w := by
  cases h with
  | unknown h => exact ⟨.inl h, rfl⟩
  | readOnly ha hsetter => exact ⟨.inr ⟨_, ha, hsetter, rfl⟩, rfl⟩
  | @raised a setter _ store ha hsetter hset =>
    obtain rfl := (hon name a ha).setter setter hsetter
    rcases writeAttribute_cases (target name) w.toStore s x with hok | ⟨_, hwhy, herror⟩
    · cases hset.symm.trans hok
    · have hfault := congrArg Prod.fst (hset.symm.trans herror)
      exact absurd (Except.error.inj hfault).symm (hwhy why)

structure Assigned (w v : World) (e : String) (data : Table Value) : Prop where
  read : ∀ name x, (name, x) ∈ data → v.get (.entity e) name = .ok x
  kept : ∀ name, name ∉ data.names →
    v.attribute? (.entity e) name = w.attribute? (.entity e) name
  others : ∀ other, other ≠ e → v.entities.get? other = w.entities.get? other
  classes : v.classes = w.classes

theorem assign_assigned (hplain : ∀ n a, w.accessor (.entity e) n = .ok a → a.IsAttribute n)
    (he : w.entities.get? e = some entity) (hdata : data.names.Nodup)
    (h : w.assign (.entity e) data = (.ok (), v)) : Assigned w v e data := by
  obtain ⟨low, _, u, hlow, hran, rfl, rfl⟩ := assign_ran h
  rw [List.append_nil] at hlow
  subst hlow
  have hon : w.OnAttributes (.entity e) id := hplain
  obtain ⟨hwrote, hwritable⟩ := hran.wrote he hon
  have hwrites : writes id data = data := List.map_id' data
  have hentries : Table.ofEntries data = data := by
    rw [Table.ofEntries, Table.merge_of_disjoint hdata fun _ _ => List.not_mem_nil, List.nil_append]
  have hattribute : ∀ n, v.attribute? (.entity e) n =
      (data.get? n).or (w.attribute? (.entity e) n) := by
    intro n
    rw [hwrote.attributes, hwrites, hentries]
  refine ⟨fun n x hmem => ?_, fun n hn => ?_, hwrote.others, hwrote.classes⟩
  · obtain ⟨a, setter, ha, -⟩ := hwritable n (List.mem_map.mpr ⟨_, hmem, rfl⟩)
    have hread := hattribute n
    rw [Table.get?_of_mem hdata hmem, Option.some_or] at hread
    have haccessor : v.accessor (.entity e) n = .ok a := (hwrote.accessor_eq _ n).trans ha
    simp only [get, haccessor, (hplain n a ha).getter, Accessor.readAttribute, hread]
  · rw [hattribute, (Table.get?_eq_none_iff data n).mpr hn, Option.none_or]

/-- Whatever is registered, the nearest class whose latest registration has a name decides on it;
    and where the accessors are those of the attributes, an assignment writes its data and nothing
    else. -/
theorem accessor_table_follows (hw : Declared w) (history : History) :
    FollowsInheritance w (w.enrolAll history) history ∧
      ((∀ step ∈ history, step.2.IsPlain) → ∀ e entity data v,
        (w.enrolAll history).entities.get? e = some entity → data.names.Nodup →
        (w.enrolAll history).assign (.entity e) data = (.ok (), v) →
        Assigned (w.enrolAll history) v e data) := by
  refine ⟨hw.followsInheritance history, fun hplain e entity data v he hdata h => ?_⟩
  refine assign_assigned (fun n a ha => ?_) he hdata h
  rcases accessor_eq (w.enrolAll history) (.entity e) n with ⟨b, hb, hok⟩ | ⟨-, why, herror⟩
  · obtain rfl := Except.ok.inj (ha.symm.trans hok)
    rw [hw.get?_accessors] at hb
    exact isAttribute_of_nearest? hplain hb
  · rw [herror] at ha
    cases ha

def repositoryFields : Table Value := [("name", .null), ("stars", .int 0)]

def forkWorld : World :=
  { (initial.declareClass "Repository" none (some repositoryFields)).declareClass "Fork"
      (some "Repository") (some [("parent", .str "origin")]) with
    entities := [
      ("fork", ⟨"Fork", [("name", .null), ("stars", .int 0), ("parent", .str "origin")]⟩),
      ("twin", ⟨"Fork", [("name", .null), ("stars", .int 0), ("parent", .str "origin")]⟩)] }

def forkHistory : History := [
  ("Fork", .derived "Fork" []),
  ("Repository", .derived "Repository" [("name", "Repository name")]),
  ("Fork", .given [("parent", .ofAttribute "parent" false none)] (by decide))]

theorem declared_forkWorld : Declared forkWorld :=
  .peopled (.subclass (.subclass .initial rfl rfl _) rfl rfl _) _

theorem fork_assigned : Declared forkWorld ∧ (∀ step ∈ forkHistory, step.2.IsPlain) ∧
    (forkWorld.enrolAll forkHistory).accessor (.entity "fork") "name" =
      .ok (.ofAttribute "name" true (some "Repository name")) ∧
    ∃ v, (forkWorld.enrolAll forkHistory).assign (.entity "fork")
        [("stars", .int 3), ("name", .str "rules")] = (.ok (), v) ∧
      Assigned (forkWorld.enrolAll forkHistory) v "fork"
        [("stars", .int 3), ("name", .str "rules")] := by
  obtain ⟨hfollows, hassigned⟩ := accessor_table_follows declared_forkWorld forkHistory
  have hplain : ∀ step ∈ forkHistory, step.2.IsPlain := by
    simp [forkHistory, Enrolment.IsPlain, Accessor.isAttribute_ofAttribute]
  exact ⟨declared_forkWorld, hplain, hfollows.found _ _ _ rfl, _, rfl,
    hassigned hplain _ _ _ _ rfl (by decide) rfl⟩

/-- An assignment through accessors of attributes that a bad name stops: the entries before the
    name are written, and the entity is as it was just where they write what was there. -/
structure PartlyWritten (w v : World) (e : String) (target : String → String)
    (low : Table Value) (name : String) (why : Misdeclaration) : Prop where
  writable : ∀ n ∈ low.names, w.Writable (.entity e) n
  refused : w.Refused (.entity e) name why
  wrote : Wrote w v e (writes target low)
  unchanged_iff : (∀ n, v.attribute? (.entity e) n = w.attribute? (.entity e) n) ↔
    ∀ n x, (Table.ofEntries (writes target low)).get? n = some x →
      w.attribute? (.entity e) n = some x

/-- An assignment that fails at a field: the setters of the entries before it ran in order, and
    nothing is undone. -/
structure StopsAt (w v : World) (s : Subject) (low : Table Value) (name : String) (x : Value)
    (why : Misdeclaration) : Prop where
  ran : ∃ u, Ran s w low u ∧ u.Fails s name x (.misdeclared why) v
  registered : v.registered = w.registered
  attributes : ∀ e entity target, s = .entity e → w.entities.get? e = some entity →
    w.OnAttributes s target → PartlyWritten w v e target low name why

theorem assign_stopped (h : w.assign s data = (.error (.misdeclared why), v)) :
    ∃ low name x high, data = low ++ (name, x) :: high ∧ StopsAt w v s low name x why := by
  obtain ⟨low, _, u, hdata, hran, name, x, high, rfl, hfails⟩ := assign_ran h
  refine ⟨low, name, x, high, hdata, ⟨u, hran, hfails⟩,
    hfails.registered_eq.trans hran.registered_eq, ?_⟩
  rintro e entity target rfl he hon
  obtain ⟨hwrote, hwritable⟩ := hran.wrote he hon
  obtain ⟨hrefused, rfl⟩ := hfails.refused (hwrote.onAttributes hon)
  exact ⟨hwritable, hwrote.refused hrefused, hwrote, hwrote.unchanged_iff⟩

-- The stars of a fork are counted in a text.
def counted : Accessor where
  getter := Accessor.readAttribute "stars"
  setter := some fun store s v => match v with
    | .str stars => (.ok (), store.write s "stars" (.int stars.length))
    | _ => (.error .wrongKind, store)

def countedHistory : History := forkHistory ++
  [("Fork", .given [("stars", counted), ("parent", .ofAttribute "parent" false none)] (by decide))]

theorem read_only_parent_stops : ∃ v low name x,
    (forkWorld.enrolAll countedHistory).assign (.entity "fork")
      [("stars", .str "***"), ("parent", .str "x"), ("name", .str "rules")] =
        (.error (.misdeclared (.readOnlyField "Fork" "parent")), v) ∧
    StopsAt (forkWorld.enrolAll countedHistory) v (.entity "fork") low name x
      (.readOnlyField "Fork" "parent") ∧
    v.attribute? (.entity "fork") "stars" = some (.int 3) := by
  have hstopped : (forkWorld.enrolAll countedHistory).assign (.entity "fork")
      [("stars", .str "***"), ("parent", .str "x"), ("name", .str "rules")] =
        (.error (.misdeclared (.readOnlyField "Fork" "parent")), _) := rfl
  obtain ⟨low, name, x, high, -, hstops⟩ := assign_stopped hstopped
  exact ⟨_, low, name, x, hstopped, hstops, rfl⟩

theorem stars_written_before_failure : ∃ v,
    (forkWorld.enrolAll forkHistory).assign (.entity "fork")
      [("stars", .int 3), ("owner", .str "x")] =
        (.error (.misdeclared (.unknownField "Fork" "owner")), v) ∧
    (forkWorld.enrolAll forkHistory).attribute? (.entity "fork") "stars" = some (.int 0) ∧
    v.attribute? (.entity "fork") "stars" = some (.int 3) :=
  ⟨_, rfl, rfl, rfl⟩

end World

end FieldRules
