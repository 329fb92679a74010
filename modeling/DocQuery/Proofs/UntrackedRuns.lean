/-
# Untracked queries and the session's entities

The entities that a session tracks are changed by queries that track, and by no others.

* **Shapers.**  A compiled shaper gives the mode of its compiler's tracking to the entities
  outside of others' navigations, and none to those inside (`Compiler.identified_compile`).  That
  is an induction along the expansion of entity types, for selects and for lookups.
* **Rows.**  Only entities of one mode go through the session.  Shaping with a shaper that has
  none of it leaves the session's entities as they are (`Shaping.KeepsTracked`), because it is
  made of steps that do (`RowShaper.mem_shapeRow`).
* **Runs.**  So a call to an untracked enumeration leaves them as they are
  (`Enumeration.tracked_next`), in any run: other enumerations may track, and what they add is not
  taken back.  A run in which nothing that is tracked was begun leaves them altogether
  (`untracked_leave_session`).

An entity that is tracked has a key, so that it can be found again; that is part of the statement.
-/
import DocQuery.Proofs.EnumerationRuns
import DocQuery.Proofs.TrackingModes

namespace DocQuery

/-! ## 1. The modes of a compiled shaper -/

/-- The mode of an entity of a shaper under an identity mode: owned entities have none. -/
def EntityRead.Identified (mode : IdentityMode) (owned : Bool) (r : EntityRead) : Prop :=
  (owned = true → r.identity = .none) ∧
  (owned = false → r.identity = mode ∧ (mode ≠ .none → r.key ≠ []))

namespace RowShaper

/-- All entities of a shaper are as its identity mode says. -/
def Identified (mode : IdentityMode) (s : RowShaper) : Prop :=
  ∀ owned r, s.Occurs r owned → r.Identified mode owned

variable {mode : IdentityMode}

theorem plain_of_mem : ∀ {fields : List (String × RowShaper)}, FieldsPlain fields →
    ∀ {name : String} {s : RowShaper}, (name, s) ∈ fields → s.Plain
  | (_, _) :: _, h, _, _, mem => by
    rw [FieldsPlain] at h
    rcases List.mem_cons.1 mem with eq | mem
    · cases eq
      exact h.1
    · exact plain_of_mem h.2 mem

theorem identity_of_plain {owned : Bool} {r : EntityRead} {s : RowShaper}
    (occurs : s.Occurs r owned) : s.Plain → r.identity = .none := by
  induction occurs with
  | here embedded =>
    intro h
    rw [Plain] at h
    exact h.1
  | embedded mem _ ih =>
    intro h
    rw [Plain] at h
    exact ih (plain_of_mem h.2 mem)
  | element _ ih =>
    intro h
    rw [Plain] at h
    exact ih h
  | field mem _ ih =>
    intro h
    rw [Plain] at h
    exact ih (plain_of_mem h mem)

theorem identified_entityShaper {m : Model} {t : EntityType} {path : List String} {nullable : Bool}
    {s : RowShaper} (h : m.entityShaper t path nullable mode = .ok s) : s.Identified mode := by
  have keyed : mode ≠ .none → t.key ≠ [] := by
    intro hmode hkey
    rw [Model.entityShaper, expandEntity, if_pos (by simp [hmode, hkey])] at h
    cases h
  obtain ⟨info, embedded, rfl, identity, -, key, -, plain⟩ := expandEntity_spec h
  intro owned r occurs
  cases occurs with
  | here => exact ⟨fun h => absurd h Bool.false_ne_true, fun _ => ⟨identity, key ▸ keyed⟩⟩
  | embedded mem inner =>
    exact ⟨fun _ => identity_of_plain inner (plain_of_mem plain mem),
      fun h => absurd h.symm Bool.false_ne_true⟩

theorem identified_constant (value : Scalar) : (RowShaper.constant value).Identified mode := by
  rintro _ _ ⟨⟩

theorem identified_read (access : ValueAccess) (type : DataType) (nullable : Bool) :
    (RowShaper.read access type nullable).Identified mode := by
  rintro _ _ ⟨⟩

theorem identified_record {fields : List (String × RowShaper)}
    (h : ∀ f ∈ fields, f.2.Identified mode) : (RowShaper.record fields).Identified mode := by
  intro owned r occurs
  cases occurs with
  | field mem inner => exact h _ mem owned r inner

end RowShaper

namespace SelectBinding

variable {b : SelectBinding}

mutual

theorem identified_bind : ∀ (shaper : Shaper) {s : RowShaper}, b.bind shaper = .ok s →
    s.Identified b.identity
  | .binding index type nullable, s, h => by
    obtain ⟨p, -, h⟩ := bind_eq_ok.1 h
    split at h
    · exact nomatch h
    · rw [← pure_eq_ok.1 h]
      exact RowShaper.identified_read _ _ _
  | .entity entityType index nullable, s, h => by
    obtain ⟨p, path, t, -, -, -, -, h⟩ := bindEntity_eq_ok.1 h
    exact RowShaper.identified_entityShaper h
  | .record fields, s, h => by
    rw [bind] at h
    obtain ⟨fs, hfs, h⟩ := bind_eq_ok.1 h
    rw [← pure_eq_ok.1 h]
    exact RowShaper.identified_record (identified_bindFields fields hfs)
  | .constant v, s, h => by
    rw [bind] at h
    rw [← Except.ok.inj h]
    exact RowShaper.identified_constant v

theorem identified_bindFields : ∀ (fields : List (String × Shaper))
    {fs : List (String × RowShaper)}, b.bindFields fields = .ok fs →
    ∀ f ∈ fs, f.2.Identified b.identity
  | [], fs, h => by
    rw [bindFields] at h
    rw [← Except.ok.inj h]
    nofun
  | (name, s) :: rest, fs, h => by
    rw [bindFields] at h
    obtain ⟨first, hfirst, h⟩ := bind_eq_ok.1 h
    obtain ⟨fs', hrest, h⟩ := bind_eq_ok.1 h
    rw [← pure_eq_ok.1 h]
    exact List.forall_mem_cons.2 ⟨identified_bind s hfirst, identified_bindFields rest hrest⟩

end

end SelectBinding

namespace PointLookup

variable {l : PointLookup} {m : Model} {mode : IdentityMode}

mutual

theorem identified_bind : ∀ (shaper : Shaper) {s : RowShaper}, l.bind m mode shaper = .ok s →
    s.Identified mode
  | .binding _ _ _, s, h => by
    rw [bind] at h
    exact nomatch h
  | .entity entityType _ nullable, s, h => by
    rw [bind] at h
    split at h
    · exact nomatch h
    · exact RowShaper.identified_entityShaper h
  | .record fields, s, h => by
    rw [bind] at h
    obtain ⟨fs, hfs, h⟩ := bind_eq_ok.1 h
    rw [← pure_eq_ok.1 h]
    exact RowShaper.identified_record (identified_bindFields fields hfs)
  | .constant v, s, h => by
    rw [bind] at h
    rw [← Except.ok.inj h]
    exact RowShaper.identified_constant v

theorem identified_bindFields : ∀ (fields : List (String × Shaper))
    {fs : List (String × RowShaper)}, l.bindFields m mode fields = .ok fs →
    ∀ f ∈ fs, f.2.Identified mode
  | [], fs, h => by
    rw [bindFields] at h
    rw [← Except.ok.inj h]
    nofun
  | (name, s) :: rest, fs, h => by
    rw [bindFields] at h
    obtain ⟨first, hfirst, h⟩ := bind_eq_ok.1 h
    obtain ⟨fs', hrest, h⟩ := bind_eq_ok.1 h
    rw [← pure_eq_ok.1 h]
    exact List.forall_mem_cons.2 ⟨identified_bind s hfirst, identified_bindFields rest hrest⟩

end

end PointLookup

/-- **A compiled shaper has the compiler's identity mode outside of owned navigations, and none
inside.** -/
theorem Compiler.identified_compile {c : Compiler} {shaped : ShapedQuery} {p : Plan}
    (h : c.compile shaped = .ok p) : p.shaper.Identified c.identity := by
  unfold compile at h
  split at h
  · obtain ⟨-, h⟩ := unless_eq_ok.1 h
    obtain ⟨bound, hbound, h⟩ := bind_eq_ok.1 h
    obtain ⟨constants, -, h⟩ := bind_eq_ok.1 h
    rw [← pure_eq_ok.1 h]
    exact SelectBinding.identified_bind shaped.shaper hbound
  · obtain ⟨_, -, h⟩ := bind_eq_ok.1 h
    obtain ⟨bound, hbound, h⟩ := bind_eq_ok.1 h
    obtain ⟨⟨quoted, t⟩, -, h⟩ := bind_eq_ok.1 h
    obtain ⟨original, -, h⟩ := bind_eq_ok.1 h
    obtain ⟨-, h⟩ := unless_eq_ok.1 h
    obtain ⟨constants, -, h⟩ := bind_eq_ok.1 h
    rw [← pure_eq_ok.1 h]
    exact PointLookup.identified_bind shaped.shaper hbound
  · exact nomatch h

/-! ## 2. Shaping that does not track -/

/-- A plan that was compiled under another tracking than that of all entities. -/
def Plan.Untracked (p : Plan) : Prop :=
  ∃ (c : Compiler) (shaped : ShapedQuery), c.config.tracking ≠ .trackAll ∧ c.compile shaped = .ok p

namespace Shaping

variable {α β : Type}

/-- A step that leaves the session's entities as they are. -/
def KeepsTracked (m : Shaping α) : Prop := ∀ s, (m.run s).2.tracked = s.tracked

theorem KeepsTracked.bind {m : Shaping α} {f : α → Shaping β} (hm : m.KeepsTracked)
    (hf : ∀ a, (f a).KeepsTracked) : (m >>= f).KeepsTracked := by
  intro s
  have before := hm s
  rw [run_bind]
  rcases hrun : m.run s with ⟨e | a, s'⟩
  · rw [hrun] at before
    exact before
  · rw [hrun] at before
    exact (hf a s').trans before

theorem stepClass_keepsTracked : StepClass (fun m => KeepsTracked m) (· ≠ .tracked) where
  pure _ _ := rfl
  fail _ _ := rfl
  bind := .bind
  freshId _ := rfl
  findEntity _ _ _ _ := rfl
  recordEntity {mode} untracked entityType key entity s := by
    unfold recordEntity
    have hget : (get : Shaping ShapingState).run s = (.ok s, s) := rfl
    rw [run_bind, hget]
    dsimp only
    split
    · exact absurd rfl untracked
    · rfl
    · rfl

end Shaping

theorem Plan.Untracked.ne_tracked {p : Plan} (h : p.Untracked) {owned : Bool} {r : EntityRead}
    (occurs : p.shaper.Occurs r owned) : r.identity ≠ .tracked := by
  obtain ⟨c, shaped, tracking, compiled⟩ := h
  obtain ⟨inside, outside⟩ := Compiler.identified_compile compiled owned r occurs
  cases owned with
  | true => simp [inside rfl]
  | false =>
    rw [(outside rfl).1, Compiler.identity]
    cases hc : c.config.tracking with
    | trackAll => exact absurd hc tracking
    | identityResolution => decide
    | noTracking => decide

/-! ## 3. Runs -/

/-- An untracked enumeration leaves the session's entities as they are. -/
theorem Enumeration.tracked_next {α : Type} {e : Enumeration} (untracked : e.query.plan.Untracked)
    (view : Item → Except MaterializeFault α) (store : Store) (s : Session) :
    (e.next view store s).session.tracked = s.tracked := by
  rcases e.next_cases view store s with ⟨session, -⟩ | ⟨row, shaped, run, session, -⟩
  · rw [session]
  · have keeps := RowShaper.mem_shapeRow Shaping.stepClass_keepsTracked
      (fun _ _ => untracked.ne_tracked) row ⟨s.tracked, e.perQuery, s.nextId⟩
    rw [session, ← run]
    exact keeps

namespace SessionRun

variable {α : Type} {r : SessionRun α}

/-- Nothing that an event begins is tracked. -/
def Event.BeginsUntracked : Event α → Prop
  | .begin q => q.plan.Untracked
  | _ => True

/-- A run in which nothing that is tracked was begun. -/
def Untracked (r : SessionRun α) : Prop := ∀ e ∈ r.enumerations, e.query.plan.Untracked

theorem tracked_after_next {index : Nat} {e : Enumeration} (he : r.enumerations[index]? = some e)
    (untracked : e.query.plan.Untracked) (view : Item → Except MaterializeFault α) :
    (r.after (.next index view)).guarded.session.tracked = r.guarded.session.tracked := by
  obtain ⟨-, -, left⟩ := e.call_eq_next view r.store r.guarded
  simp only [after, he, called, left]
  exact e.tracked_next untracked view r.store r.guarded.session

theorem Untracked.after (h : r.Untracked) {event : Event α} (begins : event.BeginsUntracked) :
    (r.after event).Untracked ∧
      (r.after event).guarded.session.tracked = r.guarded.session.tracked := by
  cases event with
  | begin q =>
    refine ⟨fun e he => ?_, rfl⟩
    rcases List.mem_append.1 he with he | he
    · exact h e he
    · rw [List.mem_singleton.1 he]
      exact begins
  | next index view =>
    cases he : r.enumerations[index]? with
    | none =>
      have same : r.after (.next index view) = r := by simp only [SessionRun.after, he]
      rw [same]
      exact ⟨h, rfl⟩
    | some e =>
      have untracked := h e (List.mem_of_getElem? he)
      refine ⟨fun e' he' => ?_, tracked_after_next he untracked view⟩
      simp only [SessionRun.after, he, called] at he'
      rcases List.mem_or_eq_of_mem_set he' with he' | rfl
      · exact h e' he'
      · rw [(e.steps_call view r.store r.guarded).1]
        exact untracked
  | change store => exact ⟨h, rfl⟩
  | take =>
    simp only [SessionRun.after]
    split
    · exact ⟨h, rfl⟩
    · next g hg =>
      obtain ⟨-, rfl⟩ := Guarded.take_eq_ok.1 hg
      exact ⟨h, rfl⟩
  | drop =>
    simp only [SessionRun.after]
    split
    · exact ⟨h, rfl⟩
    · exact ⟨h, rfl⟩

theorem Untracked.perform : ∀ {events : List (Event α)} {r : SessionRun α}, r.Untracked →
    (∀ event ∈ events, event.BeginsUntracked) →
    (r.perform events).guarded.session.tracked = r.guarded.session.tracked
  | [], _, _, _ => rfl
  | event :: _, _, h, begins => by
    obtain ⟨untracked, kept⟩ := h.after (begins event List.mem_cons_self)
    exact (untracked.perform fun e he => begins e (List.mem_cons_of_mem _ he)).trans kept

end SessionRun

/-- **Queries that are not tracked leave the session's entities alone.**  The entities of a compiled
shaper have no identity where another entity owns them; elsewhere they have the mode of the tracking,
with a key unless the mode is none.  A call to an untracked enumeration leaves what the session tracks
as it is in any run, and so does a whole run in which only untracked queries are begun. -/
theorem untracked_leave_session {α : Type} :
    (∀ (c : Compiler) (shaped : ShapedQuery) (p : Plan), c.compile shaped = .ok p →
      ∀ owned r, p.shaper.Occurs r owned →
        (owned = true → r.identity = .none) ∧
        (owned = false → r.identity = .ofTracking c.config.tracking ∧
          (r.identity ≠ .none → r.key ≠ []))) ∧
    (∀ (r : SessionRun α) (index : Nat) (e : Enumeration), r.enumerations[index]? = some e →
      e.query.plan.Untracked → ∀ view,
        (r.after (.next index view)).guarded.session.tracked = r.guarded.session.tracked) ∧
    ∀ (store : Store) (session : Session) (events : List (SessionRun.Event α)),
      (∀ q, .begin q ∈ events → q.plan.Untracked) →
      ((SessionRun.start store session).perform events).guarded.session.tracked = session.tracked := by
  refine ⟨?_, fun r index e he untracked view => SessionRun.tracked_after_next he untracked view, ?_⟩
  · intro c shaped p compiled owned r occurs
    obtain ⟨inside, outside⟩ := Compiler.identified_compile compiled owned r occurs
    refine ⟨inside, fun h => ?_⟩
    obtain ⟨identity, keyed⟩ := outside h
    exact ⟨identity, fun hr => keyed (identity ▸ hr)⟩
  · intro store session events begins
    have untracked : (SessionRun.start store session : SessionRun α).Untracked :=
      fun _ he => absurd he List.not_mem_nil
    refine untracked.perform fun event hevent => ?_
    cases event with
    | begin q => exact begins q hevent
    | _ => trivial

/-- A session that tracks a post. -/
def postSession : Session := ⟨⟨[⟨"Post", [.int32 2], .entity 0 "Post" (.ofList []) []⟩]⟩, false, 1⟩

/-- Two enumerations of the paired posts take turns. -/
def pairedEvents : List (SessionRun.Event Item) :=
  [.begin (Compiler.pairedQuery .noTracking), .begin (Compiler.pairedQuery .identityResolution),
    .next 0 .ok, .next 1 .ok, .next 1 .ok, .next 0 .ok, .next 1 .ok]

/-- Two enumerations that resolve identities for themselves take turns in a session that tracks a
post, and that is all it tracks afterwards. -/
theorem untracked_leave_session_pairedEvents :
    ((SessionRun.start postStore postSession).perform pairedEvents).calls.map Prod.fst =
      [0, 1, 1, 0, 1] ∧
    ((SessionRun.start postStore postSession).perform pairedEvents).guarded.session.tracked =
      postSession.tracked ∧
    (Compiler.numberedRead .identityResolution).key ≠ [] := by
  have untracked : ∀ tracking, tracking ≠ .trackAll →
      (Compiler.pairedQuery tracking).plan.Untracked :=
    fun tracking h => ⟨_, _, h, Compiler.compile_pairedPosts tracking⟩
  have occurs : (Compiler.pairedQuery .identityResolution).plan.shaper.Occurs
      (Compiler.numberedRead .identityResolution) false :=
    .field (List.mem_cons_self (a := ("first", _))) (.here [])
  obtain ⟨modes, -, runs⟩ := untracked_leave_session (α := Item)
  refine ⟨rfl, ?_, ?_⟩
  · refine runs postStore postSession pairedEvents fun q hq => ?_
    simp only [pairedEvents, List.mem_cons, SessionRun.Event.begin.injEq, reduceCtorEq, or_false,
      List.not_mem_nil, or_self] at hq
    rcases hq with rfl | rfl
    · exact untracked .noTracking (by decide)
    · exact untracked .identityResolution (by decide)
  · exact ((modes _ _ _ (Compiler.compile_pairedPosts .identityResolution) _ _ occurs).2 rfl).2
      (by decide)

end DocQuery
