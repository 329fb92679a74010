/-
# Identity resolution over whole runs

In one session of a database any number of enumerations take their steps in any order.  When all
entities are tracked they share the map of the session; under identity resolution each has a map
of its own.  Either way two entities that were given out are one instance exactly when they have
one type and equal keys (`Run.identities_resolved`).

From the shaper outwards:

* Every shaper that the database binds resolves identities as its tracking says
  (`RowShaper.Resolves`): what its entities own has no identity, and the key is read as the model
  describes it (`RowShaper.expandEntity_spec`).
* A step of an enumeration either shapes one row or leaves the maps alone
  (`Enumeration.next_cases`), so it gives out entries of the map that it leaves
  (`Enumeration.next_files`).
* A run keeps one of two invariants.  `Run.Tracked`: the session's map is valid and holds whatever
  was given out.  `Run.Separate`: each enumeration has a valid map, which holds whatever IT has
  given out, and no number is in the maps of two of them.  Each has one lemma for every kind of
  event.

An event may begin an enumeration, ask one for a result, begin or end another operation of the
session, or clear the plan cache.  What is assumed of the model is that no key property takes
values of any kind, for keys of that kind are not told apart by the order they are found by.
-/
import DocQuery.Proofs.IdentityShaping
import DocQuery.Proofs.PlanSafety

namespace DocQuery

/-! ## 1. Bound shapers -/

namespace RowShaper

/-- An expanded entity is read as its type says, and what it owns has no identity.  The recursion is
that of the expansion. -/
theorem expandEntity_spec {m : Model} {t : EntityType} {path : List String} {nullable : Bool}
    {identity : IdentityMode} {owners : List String} {s : RowShaper}
    (h : expandEntity m t path nullable identity owners = .ok s) :
    ∃ info embedded, s = .entity info embedded ∧ info.identity = identity ∧
      info.entityType = t.name ∧ info.key = t.key ∧
      info.properties = t.properties.map .ofProperty ∧ FieldsPlain embedded := by
  rw [expandEntity] at h
  split at h
  · cases h
  · simp only [bind_eq_ok, pure_eq_ok] at h
    obtain ⟨ps, -, embedded, hembedded, rfl⟩ := h
    refine ⟨_, _, rfl, rfl, rfl, rfl, rfl, fieldsPlain_of_forall ?_⟩
    intro f hf
    obtain ⟨nav, -, hnav⟩ := mem_of_mapM_eq_ok hembedded f hf
    split at hnav
    · cases hnav
    · next target htarget =>
      split at hnav
      · cases hnav
      · next owned =>
        have := Model.length_unowned_cons_lt (Model.mem_values_of_entityType? htarget) owned
        have plain : ∀ {path nullable s}, expandEntity m target path nullable .none
            (target.name :: owners) = .ok s → s.Plain := by
          intro path nullable s hs
          obtain ⟨info, embedded, rfl, identity, -, -, -, plain⟩ := expandEntity_spec hs
          rw [Plain]
          exact ⟨identity, plain⟩
        split at hnav
        · obtain ⟨s, hs, rfl⟩ := map_eq_ok.1 hnav
          rw [Plain]
          exact plain hs
        · obtain ⟨s, hs, rfl⟩ := map_eq_ok.1 hnav
          exact plain hs
termination_by (m.unowned owners).length

theorem resolves_entityShaper {m : Model} {t : EntityType} {path : List String} {nullable : Bool}
    {identity : IdentityMode} {s : RowShaper} (own : m.entityType? t.name = some t)
    (h : m.entityShaper t path nullable identity = .ok s) : s.Resolves m identity := by
  obtain ⟨info, embedded, rfl, hidentity, htype, hkey, hproperties, plain⟩ := expandEntity_spec h
  rw [Resolves]
  exact ⟨hidentity, ⟨t, htype ▸ own, hkey, hproperties⟩, plain⟩

end RowShaper

namespace Model

theorem entityType_eq_ok {m : Model} {name : String} {t : EntityType}
    (h : m.entityType name = .ok t) : m.entityType? name = some t := by
  unfold entityType at h
  split at h
  · next found =>
    cases h
    exact found
  · exact nomatch h

/-- Models that are made of entity types find each under its own name. -/
theorem namesTypes_ofList (types : List EntityType) : (ofList types).NamesTypes := by
  have grows : ∀ (types : List EntityType) {m : Model}, m.NamesTypes →
      (types.foldl add m).NamesTypes := by
    intro types
    induction types with
    | nil => exact fun h => h
    | cons t rest ih =>
      intro m h
      refine ih fun name found hfound => ?_
      rw [entityType?, add, Dictionary.find?_insert] at hfound
      split at hfound
      · next hname =>
        cases hfound
        exact hname.symm
      · exact h name found hfound
  exact grows types fun _ _ h => nomatch h

end Model

namespace SelectBinding

variable {b : SelectBinding}

theorem resolves_bindEntity (names : b.model.NamesTypes) {entityType : String} {index : Nat}
    {nullable : Bool} {s : RowShaper} (h : b.bindEntity entityType index nullable = .ok s) :
    s.Resolves b.model b.identity := by
  obtain ⟨p, path, t, -, -, -, ht, h⟩ := bindEntity_eq_ok.1 h
  have found := Model.entityType_eq_ok ht
  exact RowShaper.resolves_entityShaper ((names _ t found).symm ▸ found) h

mutual

theorem resolves_bind (names : b.model.NamesTypes) : ∀ (shaper : Shaper) {s : RowShaper},
    b.bind shaper = .ok s → s.Resolves b.model b.identity
  | .binding index type nullable, s, h => by
    obtain ⟨p, -, h⟩ := bind_eq_ok.1 h
    split at h
    · exact nomatch h
    · rw [← pure_eq_ok.1 h, RowShaper.Resolves]
      trivial
  | .entity entityType index nullable, s, h => resolves_bindEntity names h
  | .record fields, s, h => by
    rw [bind] at h
    obtain ⟨fs, hfs, h⟩ := bind_eq_ok.1 h
    rw [← pure_eq_ok.1 h, RowShaper.Resolves]
    exact resolves_bindFields names fields hfs
  | .constant v, s, h => by
    rw [bind] at h
    rw [← Except.ok.inj h, RowShaper.Resolves]
    trivial

theorem resolves_bindFields (names : b.model.NamesTypes) : ∀ (fields : List (String × Shaper))
    {fs : List (String × RowShaper)}, b.bindFields fields = .ok fs →
    RowShaper.FieldsResolve b.model b.identity fs
  | [], fs, h => by
    rw [bindFields] at h
    rw [← Except.ok.inj h, RowShaper.FieldsResolve]
    trivial
  | (name, s) :: rest, fs, h => by
    rw [bindFields] at h
    obtain ⟨first, hfirst, h⟩ := bind_eq_ok.1 h
    obtain ⟨fs', hrest, h⟩ := bind_eq_ok.1 h
    rw [← pure_eq_ok.1 h, RowShaper.FieldsResolve]
    exact ⟨resolves_bind names s hfirst, resolves_bindFields names rest hrest⟩

end

end SelectBinding

namespace PointLookup

variable {l : PointLookup} {m : Model} {identity : IdentityMode}

mutual

theorem resolves_bind (own : m.entityType? l.entityType.name = some l.entityType) :
    ∀ (shaper : Shaper) {s : RowShaper}, l.bind m identity shaper = .ok s → s.Resolves m identity
  | .binding _ _ _, s, h => by
    rw [bind] at h
    exact nomatch h
  | .entity entityType _ nullable, s, h => by
    rw [bind] at h
    split at h
    · exact nomatch h
    · exact RowShaper.resolves_entityShaper own h
  | .record fields, s, h => by
    rw [bind] at h
    obtain ⟨fs, hfs, h⟩ := bind_eq_ok.1 h
    rw [← pure_eq_ok.1 h, RowShaper.Resolves]
    exact resolves_bindFields own fields hfs
  | .constant v, s, h => by
    rw [bind] at h
    rw [← Except.ok.inj h, RowShaper.Resolves]
    trivial

theorem resolves_bindFields (own : m.entityType? l.entityType.name = some l.entityType) :
    ∀ (fields : List (String × Shaper)) {fs : List (String × RowShaper)},
    l.bindFields m identity fields = .ok fs → RowShaper.FieldsResolve m identity fs
  | [], fs, h => by
    rw [bindFields] at h
    rw [← Except.ok.inj h, RowShaper.FieldsResolve]
    trivial
  | (name, s) :: rest, fs, h => by
    rw [bindFields] at h
    obtain ⟨first, hfirst, h⟩ := bind_eq_ok.1 h
    obtain ⟨fs', hrest, h⟩ := bind_eq_ok.1 h
    rw [← pure_eq_ok.1 h, RowShaper.FieldsResolve]
    exact ⟨resolves_bind own s hfirst, resolves_bindFields own rest hrest⟩

end

end PointLookup

/-! ## 2. Compiled plans -/

/-- A lookup is of the entity type that the model has under its name. -/
def ShapedQuery.LooksUpOwn (m : Model) (shaped : ShapedQuery) : Prop :=
  ∀ l, shaped.query = .lookup l → m.entityType? l.entityType.name = some l.entityType

/-- A plan whose shaper resolves identities as the compiler's tracking says. -/
structure Plan.Resolves (c : Compiler) (p : Plan) : Prop where
  shaper : p.shaper.Resolves c.model c.identity
  standalone : p.standaloneStateManager = c.config.standaloneIdentityResolution

theorem Compiler.resolves_of_compile {c : Compiler} (names : c.model.NamesTypes)
    {shaped : ShapedQuery} (own : shaped.LooksUpOwn c.model) {p : Plan}
    (h : c.compile shaped = .ok p) : p.Resolves c := by
  unfold compile at h
  split at h
  · next s _ =>
    unfold compileSelect at h
    obtain ⟨-, h⟩ := unless_eq_ok.1 h
    obtain ⟨bound, hbound, h⟩ := bind_eq_ok.1 h
    obtain ⟨constants, -, h⟩ := bind_eq_ok.1 h
    rw [← pure_eq_ok.1 h]
    have resolves := SelectBinding.resolves_bind names shaped.shaper hbound
    exact ⟨resolves, rfl⟩
  · next l hl =>
    obtain ⟨_, -, h⟩ := bind_eq_ok.1 h
    obtain ⟨bound, hbound, h⟩ := bind_eq_ok.1 h
    obtain ⟨⟨quoted, t⟩, -, h⟩ := bind_eq_ok.1 h
    obtain ⟨original, -, h⟩ := bind_eq_ok.1 h
    obtain ⟨-, h⟩ := unless_eq_ok.1 h
    obtain ⟨constants, -, h⟩ := bind_eq_ok.1 h
    rw [← pure_eq_ok.1 h]
    exact ⟨PointLookup.resolves_bind (own l hl) shaped.shaper hbound, rfl⟩
  · exact nomatch h

theorem Plan.plan_of_bind {p : Plan} {context : QueryContext} {q : BoundQuery}
    (h : p.bind context = .ok q) : q.plan = p := by
  obtain ⟨constants, -, h⟩ := bind_eq_ok.1 h
  split at h
  · obtain ⟨_, -, h⟩ := bind_eq_ok.1 h
    obtain ⟨_, -, h⟩ := bind_eq_ok.1 h
    rw [← pure_eq_ok.1 h]
  · obtain ⟨l, -, h⟩ := bind_eq_ok.1 h
    rw [← pure_eq_ok.1 h]

/-! ## 3. Steps of an enumeration -/

namespace Enumeration

variable {α : Type}

/-- **A step shapes one row or leaves the identity maps alone.** -/
theorem next_cases (e : Enumeration) (view : Item → Except MaterializeFault α) (store : Store)
    (s : Session) :
    ((e.next view store s).session = s ∧ (e.next view store s).enumeration.query = e.query ∧
      (e.next view store s).enumeration.perQuery = e.perQuery ∧
      ∀ a, (e.next view store s).outcome ≠ some (.ok a)) ∨
    ∃ row shaped, (e.query.plan.shaper.shapeRow row).run ⟨s.tracked, e.perQuery, s.nextId⟩ = shaped ∧
      (e.next view store s).session =
        { s with tracked := shaped.2.tracked, nextId := shaped.2.nextId } ∧
      (e.next view store s).enumeration.query = e.query ∧
      (e.next view store s).enumeration.perQuery = shaped.2.perQuery ∧
      ∀ a, (e.next view store s).outcome = some (.ok a) →
        ∃ item, shaped.1 = .ok item ∧ view item = .ok a := by
  have ended : ∀ a : α, (none : Option (Except RunError α)) ≠ some (.ok a) := by
    rintro a ⟨⟩
  have failed : ∀ (fault : RunError) (a : α), some (Except.error fault) ≠ some (.ok a) := by
    rintro fault a ⟨⟩
  unfold next
  split
  · exact .inl ⟨rfl, rfl, rfl, ended⟩
  · split
    · exact .inl ⟨rfl, rfl, rfl, failed _⟩
    · split
      · exact .inl ⟨rfl, rfl, rfl, failed _⟩
      · exact .inl ⟨rfl, rfl, rfl, ended⟩
      · next row rest _ =>
        refine .inr ⟨row, _, rfl, ?_⟩
        unfold shape
        generalize ExceptT.run (e.query.plan.shaper.shapeRow row)
          ⟨s.tracked, e.perQuery, s.nextId⟩ = shaped
        rcases shaped with ⟨fault | item, state⟩
        · exact ⟨rfl, rfl, rfl, fun a h => absurd h (failed _ a)⟩
        · cases hv : view item with
          | error fault =>
            simp only [deliver, hv]
            exact ⟨rfl, rfl, rfl, fun a h => absurd h (failed _ a)⟩
          | ok a =>
            simp only [deliver, hv, true_and]
            intro b hb
            cases hb
            exact ⟨item, rfl, hv⟩

theorem query_next (e : Enumeration) (view : Item → Except MaterializeFault α) (store : Store)
    (s : Session) : (e.next view store s).enumeration.query = e.query := by
  rcases e.next_cases view store s with ⟨-, query, -⟩ | ⟨row, shaped, -, -, query, -⟩
  · exact query
  · exact query

/-- What a step of the enumeration shapes a row in. -/
def state (e : Enumeration) (s : Session) : ShapingState := ⟨s.tracked, e.perQuery, s.nextId⟩

/-- The identity map of the enumeration alone. -/
def ownMap (e : Enumeration) : IdentityMap := e.perQuery.getD .empty

/-- **A step gives out entries of the identity map that it leaves.** -/
theorem next_files {c : Compiler} (typed : c.model.TypesKeys) (hmode : c.identity ≠ .none)
    {e : Enumeration} (resolves : e.query.plan.Resolves c)
    {view : Item → Except MaterializeFault Item} (same : ∀ a b, view a = .ok b → a = b)
    (store : Store) {s : Session} (sound : (e.state s).Sound c.model c.identity) :
    ((e.next view store s).enumeration.state (e.next view store s).session).Sound c.model c.identity ∧
    (e.state s).Extends c.identity
      ((e.next view store s).enumeration.state (e.next view store s).session) ∧
    ∀ item, (e.next view store s).outcome = some (.ok item) → ∀ i ∈ item.instances,
      ((e.next view store s).enumeration.state (e.next view store s).session).Holds c.identity i := by
  rcases e.next_cases view store s with
    ⟨session, -, perQuery, nothing⟩ | ⟨row, shaped, run, session, -, perQuery, given⟩
  · have unchanged : (e.next view store s).enumeration.state (e.next view store s).session =
        e.state s := by rw [state, session, perQuery, state]
    rw [unchanged]
    exact ⟨sound, .refl _ _, fun item hitem => absurd hitem (nothing item)⟩
  · have shapes : (e.next view store s).enumeration.state (e.next view store s).session =
        shaped.2 := by rw [state, session, perQuery]
    obtain ⟨sound', extends', files⟩ :=
      RowShaper.shapeRow_files typed hmode resolves.shaper row (e.state s) sound nofun
    rw [state, run] at sound' extends' files
    rw [shapes]
    refine ⟨sound', extends', ?_⟩
    intro item hitem
    obtain ⟨made, hmade, hview⟩ := given item hitem
    have := same made item hview
    subst this
    exact files made hmade

end Enumeration

/-! ## 4. Runs -/

/-- One session of a database, with the enumerations that were begun in it. -/
structure Run where
  database : Database
  session : Session
  enumerations : List Enumeration
  /-- What was given out so far, each result with the position of its enumeration. -/
  given : List (Nat × Item)

namespace Run

/-- What may happen next in a run. -/
inductive Event where
  /-- A query is compiled, bound to parameters and begun, if all of this succeeds. -/
  | begin (shaped : ShapedQuery) (parameters : Parameters)
  /-- An enumeration is asked for its next result.  It reads what the store holds at that time, and
  the type that the caller wants may refuse a result. -/
  | next (index : Nat) (accept : Item → Except MaterializeFault Unit) (store : Store)
  /-- Another operation of the session begins or ends. -/
  | use (inUse : Bool)
  | clearCache

/-- A session of a database in which nothing has happened. -/
def start (d : Database) : Run := ⟨d, .fresh, [], []⟩

/-- A view that gives a result as it is, if the caller accepts it. -/
def viewAs (accept : Item → Except MaterializeFault Unit) (item : Item) :
    Except MaterializeFault Item := (accept item).map fun _ => item

/-- What a step of an enumeration makes of a run. -/
def advance (r : Run) (index : Nat) (step : Step Item) : Run where
  database := r.database
  session := step.session
  enumerations := r.enumerations.set index step.enumeration
  given := match step.outcome with
    | some (.ok item) => r.given ++ [(index, item)]
    | _ => r.given

theorem mem_given_advance {r : Run} {index : Nat} {step : Step Item} {g : Nat × Item}
    (h : g ∈ (r.advance index step).given) :
    g ∈ r.given ∨ ∃ item, step.outcome = some (.ok item) ∧ g = (index, item) := by
  unfold advance at h
  dsimp only at h
  split at h
  · next item hitem =>
    rcases List.mem_append.1 h with h | h
    · exact .inl h
    · exact .inr ⟨item, hitem, List.mem_singleton.1 h⟩
  · exact .inl h

def after (r : Run) : Event → Run
  | .begin shaped parameters =>
    let compiled := r.database.compile shaped
    let query := compiled.1.bind fun p => p.plan.bind (r.database.compiler.queryContext parameters)
    { r with
      database := compiled.2
      enumerations := r.enumerations ++ query.toOption.toList.map BoundQuery.enumerate }
  | .next index accept store => match r.enumerations[index]? with
    | none => r
    | some e => r.advance index (e.next (viewAs accept) store r.session)
  | .use inUse => { r with session := { r.session with inUse } }
  | .clearCache => { r with database := r.database.clearCache }

/-- The run after one event after another. -/
def perform (r : Run) (events : List Event) : Run := events.foldl after r

/-- An event that looks up no entity types but those of the model. -/
def Event.LooksUpOwn (m : Model) : Event → Prop
  | .begin shaped _ => shaped.LooksUpOwn m
  | _ => True

/-- The plans of a run, those in the cache and those that are enumerated, resolve identities. -/
structure Sound (c : Compiler) (r : Run) : Prop where
  compiler : r.database.compiler = c
  cached : r.database.cache.All fun _ plan => plan.plan.Resolves c
  enumerated : ∀ e ∈ r.enumerations, e.query.plan.Resolves c

variable {c : Compiler} {r : Run}

/-- An enumeration that an event begins runs a plan that was compiled for it. -/
theorem mem_enumerations_begin {shaped : ShapedQuery} {parameters : Parameters} {e : Enumeration}
    (h : e ∈ (r.after (.begin shaped parameters)).enumerations) :
    e ∈ r.enumerations ∨ ∃ (plan : CompiledPlan) (q : BoundQuery),
      (r.database.compile shaped).1 = .ok plan ∧ e = q.enumerate ∧ q.plan = plan.plan := by
  rcases List.mem_append.1 h with h | h
  · exact .inl h
  · obtain ⟨q, hq, rfl⟩ := List.mem_map.1 h
    cases hplan : (r.database.compile shaped).1 with
    | error fault =>
      simp only [hplan] at hq
      exact nomatch hq
    | ok plan =>
      simp only [hplan, Except.bind] at hq
      cases hbound : plan.plan.bind (r.database.compiler.queryContext parameters) with
      | error fault =>
        rw [hbound] at hq
        exact nomatch hq
      | ok q' =>
        rw [hbound] at hq
        have := List.mem_singleton.1 hq
        subst this
        exact .inr ⟨plan, q, rfl, rfl, Plan.plan_of_bind hbound⟩

theorem Sound.after (h : r.Sound c) (names : c.model.NamesTypes) {event : Event}
    (own : event.LooksUpOwn c.model) : (r.after event).Sound c := by
  cases event with
  | begin shaped parameters =>
    have fresh : ∀ p, r.database.compiler.compile shaped = .ok p → p.Resolves c := by
      intro p hp
      exact Compiler.resolves_of_compile names own (h.compiler ▸ hp)
    obtain ⟨answered, cached⟩ := Database.compile_all h.cached fresh
    refine ⟨h.compiler, cached, ?_⟩
    intro e he
    rcases mem_enumerations_begin he with he | ⟨plan, q, hplan, rfl, hq⟩
    · exact h.enumerated e he
    · have : q.plan.Resolves c := hq ▸ answered plan hplan
      exact this
  | next index accept store =>
    unfold Run.after
    dsimp only
    split
    · exact h
    · next e he =>
      refine ⟨h.compiler, h.cached, ?_⟩
      intro e' he'
      rcases List.mem_or_eq_of_mem_set he' with he' | rfl
      · exact h.enumerated e' he'
      · have enumerated := h.enumerated e (List.mem_of_getElem? he)
        have query := e.query_next (viewAs accept) store r.session
        rw [← query] at enumerated
        exact enumerated
  | use inUse => exact ⟨h.compiler, h.cached, h.enumerated⟩
  | clearCache => exact ⟨h.compiler, Cache.all_clear _, h.enumerated⟩

theorem sound_start {d : Database} (opened : Database.ofCompiler c = .ok d) :
    (start d).Sound c := by
  obtain ⟨_, -, h⟩ := bind_eq_ok.1 opened
  obtain ⟨_, -, h⟩ := bind_eq_ok.1 h
  rw [← pure_eq_ok.1 h]
  exact ⟨rfl, Cache.all_ofCapacity _, fun _ he => absurd he List.not_mem_nil⟩

theorem eq_of_viewAs {accept : Item → Except MaterializeFault Unit} {a b : Item}
    (h : viewAs accept a = .ok b) : a = b := by
  obtain ⟨-, -, rfl⟩ := map_eq_ok.1 h
  rfl

/-! ## 5. One map for the session -/

/-- The session's map is valid and holds whatever was given out. -/
structure Tracked (c : Compiler) (r : Run) : Prop where
  valid : r.session.tracked.Valid c.model r.session.nextId
  given : ∀ g ∈ r.given, ∀ i ∈ g.2.instances, ∃ e ∈ r.session.tracked.entries,
    e.entity = .ofInstance i

/-- What an enumeration gives out is in the session's map afterwards, and so is what was there. -/
theorem Tracked.after (h : r.Tracked c) (sound : r.Sound c) (typed : c.model.TypesKeys)
    (tracking : c.identity = .tracked) (event : Event) :
    (r.after event).Tracked c ∧
      r.session.tracked.entries <+: (r.after event).session.tracked.entries := by
  cases event with
  | begin shaped parameters => exact ⟨⟨h.valid, h.given⟩, List.prefix_rfl⟩
  | use inUse => exact ⟨⟨h.valid, h.given⟩, List.prefix_rfl⟩
  | clearCache => exact ⟨⟨h.valid, h.given⟩, List.prefix_rfl⟩
  | next index accept store =>
    unfold Run.after
    dsimp only
    split
    · exact ⟨h, List.prefix_rfl⟩
    · next e he =>
      have resolves := sound.enumerated e (List.mem_of_getElem? he)
      have before : (e.state r.session).Sound c.model c.identity := by
        rw [tracking]
        exact ⟨nofun, h.valid⟩
      obtain ⟨sound', extends', files⟩ := e.next_files typed (tracking ▸ nofun) resolves
        (fun _ _ => eq_of_viewAs) store before
      rw [tracking] at sound' extends' files
      generalize e.next (viewAs accept) store r.session = step at sound' extends' files
      obtain ⟨new, hnew, -⟩ := extends'.entries
      have grows : r.session.tracked.entries <+: step.session.tracked.entries := ⟨new, hnew.symm⟩
      refine ⟨⟨sound'.valid, ?_⟩, grows⟩
      intro g hg i hi
      rcases mem_given_advance hg with hg | ⟨item, hitem, rfl⟩
      · obtain ⟨entry, hentry, holds⟩ := h.given g hg i hi
        exact ⟨entry, grows.subset hentry, holds⟩
      · exact files item hitem i hi

/-! ## 6. A map for each enumeration -/

/-- Each enumeration has a valid map, which holds whatever it has given out, and no number is in the
maps of two of them. -/
structure Separate (c : Compiler) (r : Run) : Prop where
  present : ∀ e ∈ r.enumerations, e.perQuery.isSome
  valid : ∀ e ∈ r.enumerations, e.ownMap.Valid c.model r.session.nextId
  apart : ∀ {n k : Nat} {e f : Enumeration}, r.enumerations[n]? = some e → r.enumerations[k]? = some f →
    n ≠ k → ∀ a ∈ e.ownMap.entries, ∀ b ∈ f.ownMap.entries, ∀ x ∈ a.entity.numbers,
    x ∉ b.entity.numbers
  given : ∀ g ∈ r.given, ∃ e, r.enumerations[g.1]? = some e ∧
    ∀ i ∈ g.2.instances, ∃ a ∈ e.ownMap.entries, a.entity = .ofInstance i

/-- New enumerations begin with empty maps. -/
theorem Separate.begin (h : r.Separate c) {begun : List Enumeration}
    (empty : ∀ e ∈ begun, e.perQuery = some .empty) (d : Database) :
    Separate c { r with database := d, enumerations := r.enumerations ++ begun } := by
  have nothing : ∀ {e : Enumeration}, e ∈ begun → e.ownMap = .empty := by
    intro e he
    rw [Enumeration.ownMap, empty e he, Option.getD_some]
  have place : ∀ {n : Nat} {e : Enumeration}, (r.enumerations ++ begun)[n]? = some e →
      r.enumerations[n]? = some e ∨ e.ownMap = .empty := by
    intro n e he
    rw [List.getElem?_append] at he
    split at he
    · exact .inl he
    · exact .inr (nothing (List.mem_of_getElem? he))
  refine ⟨?_, ?_, ?_, ?_⟩
  · intro e he
    rcases List.mem_append.1 he with he | he
    · exact h.present e he
    · rw [empty e he]
      rfl
  · intro e he
    rcases List.mem_append.1 he with he | he
    · exact h.valid e he
    · rw [nothing he]
      exact IdentityMap.valid_empty ..
  · intro n k e f he hf hne a ha b hb
    rcases place he with he | he
    · rcases place hf with hf | hf
      · exact h.apart he hf hne a ha b hb
      · rw [hf] at hb
        exact absurd hb List.not_mem_nil
    · rw [he] at ha
      exact absurd ha List.not_mem_nil
  · intro g hg
    obtain ⟨e, he, holds⟩ := h.given g hg
    refine ⟨e, ?_, holds⟩
    rw [← he]
    exact List.getElem?_append_left (List.getElem?_eq_some_iff.1 he).1

/-- A step that adds new instances to the map of its enumeration, and gives out none but those in
it, leaves the maps separate. -/
theorem Separate.advance (h : r.Separate c) {index : Nat} {e : Enumeration}
    (he : r.enumerations[index]? = some e) {step : Step Item}
    (sound : (step.enumeration.state step.session).Sound c.model .perQuery)
    (extends' : (e.state r.session).Extends .perQuery (step.enumeration.state step.session))
    (files : ∀ item, step.outcome = some (.ok item) → ∀ i ∈ item.instances,
      (step.enumeration.state step.session).Holds .perQuery i) :
    (r.advance index step).Separate c := by
  obtain ⟨new, hnew, above⟩ := extends'.entries
  have entries : step.enumeration.ownMap.entries = e.ownMap.entries ++ new := hnew
  have place : ∀ {n : Nat} {f : Enumeration},
      (r.enumerations.set index step.enumeration)[n]? = some f →
      (n = index ∧ f = step.enumeration) ∨ (n ≠ index ∧ r.enumerations[n]? = some f) := by
    intro n f hf
    by_cases hn : index = n
    · rw [← hn, List.getElem?_set_self', he] at hf
      exact .inl ⟨hn.symm, (Option.some.inj hf).symm⟩
    · rw [List.getElem?_set_ne hn] at hf
      exact .inr ⟨fun hn' => hn hn'.symm, hf⟩
  have moved : ∀ {k : Nat} {f : Enumeration}, k ≠ index → r.enumerations[k]? = some f →
      ∀ a ∈ step.enumeration.ownMap.entries, ∀ b ∈ f.ownMap.entries, ∀ x ∈ a.entity.numbers,
      x ∉ b.entity.numbers := by
    intro k f hk hf a ha b hb x hx hx'
    rw [entries] at ha
    rcases List.mem_append.1 ha with ha | ha
    · exact h.apart he hf hk.symm a ha b hb x hx hx'
    · have low := (h.valid f (List.mem_of_getElem? hf)).below b hb x hx'
      exact absurd (above a ha x hx) (Nat.not_le.2 low)
  refine ⟨?_, ?_, ?_, ?_⟩
  · intro f hf
    rcases List.mem_or_eq_of_mem_set hf with hf | rfl
    · exact h.present f hf
    · exact sound.present rfl
  · intro f hf
    rcases List.mem_or_eq_of_mem_set hf with hf | rfl
    · exact (h.valid f hf).mono extends'.nextId
    · exact sound.valid
  · intro n k f g hf hg hne a ha b hb x hx hx'
    rcases place hf with ⟨rfl, rfl⟩ | ⟨hn, oldf⟩
    · rcases place hg with ⟨rfl, -⟩ | ⟨hk, oldg⟩
      · exact hne rfl
      · exact moved hk oldg a ha b hb x hx hx'
    · rcases place hg with ⟨rfl, rfl⟩ | ⟨hk, oldg⟩
      · exact moved hn oldf b hb a ha x hx' hx
      · exact h.apart oldf oldg hne a ha b hb x hx hx'
  · intro g hg
    have stays : (r.enumerations.set index step.enumeration)[index]? = some step.enumeration := by
      rw [List.getElem?_set_self', he]
      rfl
    rcases mem_given_advance hg with hg | ⟨item, hitem, rfl⟩
    · obtain ⟨f, hf, holds⟩ := h.given g hg
      by_cases hn : index = g.1
      · rw [← hn, he] at hf
        cases hf
        refine ⟨step.enumeration, hn ▸ stays, ?_⟩
        intro i hi
        obtain ⟨a, ha, hentity⟩ := holds i hi
        exact ⟨a, entries ▸ List.mem_append_left _ ha, hentity⟩
      · exact ⟨f, (List.getElem?_set_ne hn).trans hf, holds⟩
    · exact ⟨step.enumeration, stays, files item hitem⟩

theorem Separate.after (h : r.Separate c) (sound : r.Sound c) (names : c.model.NamesTypes)
    (typed : c.model.TypesKeys) (tracking : c.config.tracking = .identityResolution) {event : Event}
    (own : event.LooksUpOwn c.model) : (r.after event).Separate c := by
  have mode : c.identity = .perQuery := by rw [Compiler.identity, tracking, IdentityMode.ofTracking]
  cases event with
  | begin shaped parameters =>
    refine h.begin (fun e he => ?_) _
    have begun : (r.after (.begin shaped parameters)).Sound c := sound.after names own
    have resolves := begun.enumerated e (List.mem_append_right _ he)
    obtain ⟨q, -, rfl⟩ := List.mem_map.1 he
    have standalone : q.plan.standaloneStateManager = true := by
      rw [show q.plan.standaloneStateManager = _ from resolves.standalone,
        Config.standaloneIdentityResolution, tracking]
      rfl
    rw [BoundQuery.enumerate, if_pos standalone]
  | use inUse => exact ⟨h.present, h.valid, h.apart, h.given⟩
  | clearCache => exact ⟨h.present, h.valid, h.apart, h.given⟩
  | next index accept store =>
    unfold Run.after
    dsimp only
    split
    · exact h
    · next e he =>
      have here := List.mem_of_getElem? he
      have before : (e.state r.session).Sound c.model c.identity := by
        rw [mode]
        exact ⟨fun _ => h.present e here, h.valid e here⟩
      have identity : c.identity ≠ .none := by
        rw [mode]
        decide
      obtain ⟨sound', extends', files⟩ := e.next_files typed identity
        (sound.enumerated e here) (fun _ _ => eq_of_viewAs) store before
      rw [mode] at sound' extends' files
      exact h.advance he sound' extends' files

/-! ## 7. Whole runs -/

theorem perform_append (r : Run) (earlier later : List Event) :
    r.perform (earlier ++ later) = (r.perform earlier).perform later := List.foldl_append

theorem Sound.perform (names : c.model.NamesTypes) : ∀ {events : List Event} {r : Run}, r.Sound c →
    (∀ e ∈ events, e.LooksUpOwn c.model) → (r.perform events).Sound c
  | [], _, h, _ => h
  | e :: _, _, h, own =>
    (h.after names (own e List.mem_cons_self)).perform names
      fun x hx => own x (List.mem_cons_of_mem _ hx)

theorem Tracked.perform (names : c.model.NamesTypes) (typed : c.model.TypesKeys)
    (tracking : c.identity = .tracked) : ∀ {events : List Event} {r : Run}, r.Tracked c →
    r.Sound c → (∀ e ∈ events, e.LooksUpOwn c.model) → (r.perform events).Tracked c ∧
      r.session.tracked.entries <+: (r.perform events).session.tracked.entries
  | [], _, h, _, _ => ⟨h, List.prefix_rfl⟩
  | e :: _, _, h, sound, own => by
    obtain ⟨first, grows⟩ := h.after sound typed tracking e
    obtain ⟨last, grows'⟩ := first.perform names typed tracking
      (sound.after names (own e List.mem_cons_self)) fun x hx => own x (List.mem_cons_of_mem _ hx)
    exact ⟨last, grows.trans grows'⟩

theorem Separate.perform (names : c.model.NamesTypes) (typed : c.model.TypesKeys)
    (tracking : c.config.tracking = .identityResolution) : ∀ {events : List Event} {r : Run},
    r.Separate c → r.Sound c → (∀ e ∈ events, e.LooksUpOwn c.model) →
      (r.perform events).Separate c
  | [], _, h, _, _ => h
  | e :: _, _, h, sound, own =>
    (h.after sound names typed tracking (own e List.mem_cons_self)).perform names typed tracking
      (sound.after names (own e List.mem_cons_self)) fun x hx => own x (List.mem_cons_of_mem _ hx)

theorem tracked_start (c : Compiler) (d : Database) : (start d).Tracked c :=
  ⟨IdentityMap.valid_empty .., fun _ hg => absurd hg List.not_mem_nil⟩

theorem separate_start (c : Compiler) (d : Database) : (start d).Separate c :=
  ⟨fun _ he => absurd he List.not_mem_nil, fun _ he => absurd he List.not_mem_nil,
    fun he => absurd (List.mem_of_getElem? he) List.not_mem_nil,
    fun _ hg => absurd hg List.not_mem_nil⟩

/-- **One instance for each type and key.**  Take any run of a session, with its enumerations stepping
in any order.  When all entities are tracked, two entities that were given out are one instance
exactly when they have one type and equal keys; what the session's map held earlier in the run stays
where it was; and each entry holds an instance of its type and with its key.  Under identity
resolution the same is so of the entities that one enumeration gave out, and no instance, owned or
not, is given out by two enumerations. -/
theorem identities_resolved {d : Database} (opened : Database.ofCompiler c = .ok d)
    {types : List EntityType} (model : c.model = .ofList types) (typed : c.model.TypesKeys)
    {events : List Event} (own : ∀ e ∈ events, e.LooksUpOwn c.model) :
    (c.config.tracking = .trackAll →
      (∀ g ∈ ((start d).perform events).given, ∀ h ∈ ((start d).perform events).given,
        ∀ a ∈ g.2.instances, ∀ b ∈ h.2.instances, a.Identified c.model b) ∧
      (∀ earlier, earlier <+: events → ((start d).perform earlier).session.tracked.entries <+:
        ((start d).perform events).session.tracked.entries) ∧
      ∀ e ∈ ((start d).perform events).session.tracked.entries, ∃ i, e.Files c.model i) ∧
    (c.config.tracking = .identityResolution →
      ∀ g ∈ ((start d).perform events).given, ∀ h ∈ ((start d).perform events).given,
        (g.1 = h.1 → ∀ a ∈ g.2.instances, ∀ b ∈ h.2.instances, a.Identified c.model b) ∧
        (g.1 ≠ h.1 → ∀ a ∈ g.2.instances, ∀ b ∈ h.2.instances,
          ∀ n ∈ (Item.ofInstance a).numbers, n ∉ (Item.ofInstance b).numbers)) := by
  have names : c.model.NamesTypes := model ▸ Model.namesTypes_ofList types
  have sound := sound_start opened
  constructor
  · intro tracking
    have mode : c.identity = .tracked := by rw [Compiler.identity, tracking, IdentityMode.ofTracking]
    obtain ⟨tracked, -⟩ := (tracked_start c d).perform names typed mode sound own
    refine ⟨?_, ?_, tracked.valid.files⟩
    · intro g hg h hh a ha b hb
      obtain ⟨x, hx, hxa⟩ := tracked.given g hg a ha
      obtain ⟨y, hy, hyb⟩ := tracked.given h hh b hb
      exact tracked.valid.identified hx hy hxa hyb
    · rintro earlier ⟨later, rfl⟩
      have ownEarlier : ∀ e ∈ earlier, e.LooksUpOwn c.model :=
        fun e he => own e (List.mem_append_left _ he)
      obtain ⟨before, -⟩ := (tracked_start c d).perform names typed mode sound ownEarlier
      rw [perform_append]
      exact (before.perform names typed mode (sound.perform names ownEarlier)
        fun e he => own e (List.mem_append_right _ he)).2
  · intro tracking g hg h hh
    have separate := (separate_start c d).perform names typed tracking sound own
    obtain ⟨e, he, holdsE⟩ := separate.given g hg
    obtain ⟨f, hf, holdsF⟩ := separate.given h hh
    constructor
    · intro same a ha b hb
      rw [same, hf] at he
      cases he
      obtain ⟨x, hx, hxa⟩ := holdsE a ha
      obtain ⟨y, hy, hyb⟩ := holdsF b hb
      exact (separate.valid e (List.mem_of_getElem? hf)).identified hx hy hxa hyb
    · intro differ a ha b hb n hna
      obtain ⟨x, hx, hxa⟩ := holdsE a ha
      obtain ⟨y, hy, hyb⟩ := holdsF b hb
      rw [← hyb]
      rw [← hxa] at hna
      exact separate.apart he hf differ x hx y hy n hna

/-- Posts, which have a number as their key. -/
def numberedPost : EntityType :=
  ⟨"Post", "posts", [⟨"Id", .int32, false, "id", none⟩], ["Id"], none, []⟩

/-- A compiler for posts under a tracking. -/
def trackingCompiler (tracking : Tracking) : Compiler where
  model := .ofList [numberedPost]
  config := { Config.default with tracking }
  contextType := "Posts"
  constantFactory := id

def trackingDatabase (tracking : Tracking) : Database :=
  ⟨trackingCompiler tracking, .ofCapacity Config.default.planCacheCapacity⟩

/-- Each post twice in a record. -/
def pairedPosts : ShapedQuery where
  query := .select { taggedPosts with projection := [⟨.entity "Post" [], "c"⟩] }
  shaper := .record [("first", .entity "Post" 0 false), ("second", .entity "Post" 0 false)]

/-- The post of a number. -/
def numberedLookup : ShapedQuery where
  query := .lookup ⟨"posts", numberedPost, .ofList [("Id", "id")]⟩
  shaper := .entity "Post" 0 false

/-- Posts are listed, and one of them looked up between two steps of the list. -/
def postEvents : List Event :=
  let next (index : Nat) : Event := .next index (fun _ => .ok ()) postStore
  [.begin pairedPosts taggedParameters, next 0,
    .begin numberedLookup (.ofList [("id", .scalar (.int32 3))]), next 1, next 0]

theorem typesKeys_trackingCompiler (tracking : Tracking) :
    (trackingCompiler tracking).model.TypesKeys := by
  intro name t ht k hk p hp
  have types : (trackingCompiler tracking).model.entityTypes.values = [numberedPost] := rfl
  have := Model.mem_values_of_entityType? ht
  rw [types] at this
  cases List.mem_singleton.1 this
  cases List.mem_singleton.1 hk
  cases hp
  exact DataType.noConfusion

/-- Posts are listed, and one of them is looked up between two steps of the list. -/
theorem identities_resolved_postEvents :
    (∀ g ∈ ((start (trackingDatabase .trackAll)).perform postEvents).given,
      ∀ h ∈ ((start (trackingDatabase .trackAll)).perform postEvents).given,
      ∀ a ∈ g.2.instances, ∀ b ∈ h.2.instances,
        a.Identified (trackingCompiler .trackAll).model b) ∧
    ∀ g ∈ ((start (trackingDatabase .identityResolution)).perform postEvents).given,
      ∀ h ∈ ((start (trackingDatabase .identityResolution)).perform postEvents).given, g.1 ≠ h.1 →
      ∀ a ∈ g.2.instances, ∀ b ∈ h.2.instances,
        ∀ n ∈ (Item.ofInstance a).numbers, n ∉ (Item.ofInstance b).numbers := by
  have own : ∀ tracking, ∀ e ∈ postEvents, e.LooksUpOwn (trackingCompiler tracking).model := by
    intro tracking e he
    simp only [postEvents, List.mem_cons, List.not_mem_nil, or_false] at he
    rcases he with rfl | rfl | rfl | rfl | rfl
    · intro l hl
      cases hl
    · trivial
    · intro l hl
      cases hl
      rfl
    · trivial
    · trivial
  constructor
  · exact ((identities_resolved rfl rfl (typesKeys_trackingCompiler .trackAll)
      (own .trackAll)).1 rfl).1
  · intro g hg h hh
    exact ((identities_resolved rfl rfl (typesKeys_trackingCompiler .identityResolution)
      (own .identityResolution)).2 rfl g hg h hh).2

end Run

end DocQuery
