/-
# Calls of an enumeration

A call to an enumeration takes a guard of its session if its plan asks for one, asks the store if
no call has done so, shapes one row and drops the guard.  `Enumeration.next` has the result of all
that in one step.  `Enumeration.call` takes the steps one by one and keeps a record of them
(`Call`): what the store was asked, which row was shaped, which guards were live meanwhile.

* **Same results.**  A call has the outcome of `Enumeration.next` and leaves the enumeration and
  the session that it leaves, with as many guards as it found (`Enumeration.call_eq_next`).
* **Same work.**  The row in the record is the one that the step has shaped, and a result is what
  comes of shaping THAT row and viewing it: `RowShaper.result` is the only place from which the
  constructors `Call.Steps.delivered` and `Call.Steps.unfit` take an outcome.
* **Nothing else.**  `Call.Steps` is what a call can do to the progress of its enumeration, and
  `Enumeration.steps_call` says that it does one of these things.

Errors of the work are told from the refusal of a guard (`IsWorkError`): no select, no lookup and
no row fails with the error of a session that is in use.  So that error means what it says, and
all that is known of a sequence of calls comes from `Call.Steps` by induction.
-/
import DocQuery.Proofs.EvaluationFaults
import DocQuery.Proofs.ShapingSteps
import DocQuery.Session

namespace DocQuery

/-! ## 1. Requests -/

/-- What an enumeration asks a store. -/
inductive StoreRequest where
  | select (r : QueryRequest)
  | lookup (r : LookupRequest)

def Store.answer (s : Store) : StoreRequest → Except RunError (List Row)
  | .select r => s.execute r
  | .lookup r => .ok (s.read r).toList

namespace BoundQuery

variable {q : BoundQuery}

/-- The request of a bound query for its parameters. -/
def request (q : BoundQuery) : Except RunError StoreRequest :=
  match q.source with
  | .select s => (RunError.lift (s.finalize q.context.parameters)).map fun f =>
    .select ⟨f.1.container, q.plan.partitionKey, q.context.rowLayout, f.2, f.1⟩
  | .lookup l => (l.request q.plan.partitionKey q.context.parameters).map .lookup

theorem fetch_eq (q : BoundQuery) (store : Store) : q.fetch store = q.request >>= store.answer := by
  unfold fetch request
  cases q.source with
  | select s =>
    dsimp only
    cases RunError.lift (s.finalize q.context.parameters) <;> rfl
  | lookup l =>
    dsimp only
    cases l.request q.plan.partitionKey q.context.parameters <;> rfl

/-- The request that is made in the context of the query. -/
def ask (q : BoundQuery) : Except RunError StoreRequest := do
  q.checkContext
  q.request

theorem ask_eq_ok {r : StoreRequest} :
    q.ask = .ok r ↔ q.checkContext = .ok () ∧ q.request = .ok r := by
  unfold ask
  rw [bind_eq_ok]
  constructor
  · rintro ⟨⟨⟩, hcontext, hrequest⟩
    exact ⟨hcontext, hrequest⟩
  · rintro ⟨hcontext, hrequest⟩
    exact ⟨(), hcontext, hrequest⟩

/-- What is asked on the way to the rows that a progress has before it, and these rows. -/
def consult (q : BoundQuery) (store : Store) : Progress → List StoreRequest × Except RunError (List Row)
  | .finished => ([], .ok [])
  | .reading rows => ([], .ok rows)
  | .pending => (q.ask.toOption.toList, q.ask >>= store.answer)

end BoundQuery

theorem Enumeration.remaining_eq (e : Enumeration) (store : Store) :
    e.remaining store = (e.query.consult store e.progress).2 := by
  unfold remaining BoundQuery.consult
  cases e.progress with
  | finished => rfl
  | reading rows => rfl
  | pending =>
    dsimp only
    unfold BoundQuery.ask
    rw [e.query.fetch_eq]
    cases e.query.checkContext <;> rfl

/-! ## 2. Guards -/

/-- A session with the number of its live guards. -/
structure Guarded where
  session : Session
  guards : Nat

namespace Guarded

def take (g : Guarded) : Except RunError Guarded :=
  g.session.enter.map fun session => ⟨session, g.guards + 1⟩

def drop (g : Guarded) : Guarded := ⟨g.session.leave, g.guards - 1⟩

def takeIf (g : Guarded) (checks : Bool) : Except RunError Guarded :=
  if checks then g.take else .ok g

def dropIf (g : Guarded) (checks : Bool) : Guarded := if checks then g.drop else g

/-- At most one guard is live, and the session is in use exactly while one is. -/
structure Sound (g : Guarded) : Prop where
  atMostOne : g.guards ≤ 1
  inUse : g.session.inUse = true ↔ g.guards = 1

variable {g g' : Guarded}

theorem take_eq_ok :
    g.take = .ok g' ↔ g.session.inUse = false ∧ g' = ⟨{ g.session with inUse := true }, g.guards + 1⟩ := by
  unfold take Session.enter
  cases g.session.inUse with
  | true => simp [Except.map]
  | false => simp [Except.map, eq_comm]

theorem Sound.guards_eq_zero (h : g.Sound) (free : g.session.inUse = false) : g.guards = 0 := by
  have := h.atMostOne
  have : g.guards ≠ 1 := fun one => by simp [h.inUse.2 one] at free
  omega

theorem Sound.take (h : g.Sound) (hg : g.take = .ok g') : g'.Sound := by
  obtain ⟨free, rfl⟩ := take_eq_ok.1 hg
  simp only [h.guards_eq_zero free]
  exact ⟨Nat.le_refl 1, by simp⟩

theorem Sound.takeIf (h : g.Sound) {checks : Bool} (hg : g.takeIf checks = .ok g') : g'.Sound := by
  cases checks with
  | false =>
    cases hg
    exact h
  | true => exact h.take hg

theorem Sound.drop (h : g.Sound) : g.drop.Sound := by
  have := h.atMostOne
  refine ⟨?_, ?_⟩ <;> simp only [Guarded.drop, Session.leave]
  · omega
  · simp only [Bool.false_eq_true, false_iff]
    omega

/-- A guard is refused exactly while one is live. -/
theorem Sound.take_refused (h : g.Sound) (live : g.guards ≠ 0) :
    g.take = .error .concurrentUse := by
  have := h.atMostOne
  have : g.session.inUse = true := h.inUse.2 (by omega)
  rw [Guarded.take, Session.enter, if_pos this]
  rfl

theorem Sound.takeIf_iff (h : g.Sound) (checks : Bool) :
    (∃ g', g.takeIf checks = .ok g') ↔ checks = false ∨ g.guards = 0 := by
  cases checks with
  | false => exact ⟨fun _ => .inl rfl, fun _ => ⟨g, rfl⟩⟩
  | true =>
    constructor
    · rintro ⟨g', hg⟩
      exact .inr (h.guards_eq_zero (take_eq_ok.1 hg).1)
    · rintro (⟨⟨⟩⟩ | none)
      have free : g.session.inUse = false := by
        refine Bool.eq_false_iff.2 fun inUse => ?_
        have one := h.inUse.1 inUse
        omega
      exact ⟨_, take_eq_ok.2 ⟨free, rfl⟩⟩

/-- Nothing but a live guard refuses one. -/
theorem takeIf_eq_error {checks : Bool} {fault : RunError} (h : g.takeIf checks = .error fault) :
    checks = true ∧ fault = .concurrentUse := by
  cases checks with
  | false => cases h
  | true =>
    simp only [takeIf, if_true, take, Session.enter] at h
    split at h
    · cases h
      exact ⟨rfl, rfl⟩
    · cases h

theorem session_of_takeIf {checks : Bool} (h : g.takeIf checks = .ok g') :
    g'.session = { g.session with inUse := g'.session.inUse } := by
  cases checks with
  | false =>
    cases h
    rfl
  | true =>
    obtain ⟨-, rfl⟩ := take_eq_ok.1 h
    rfl

/-- A guard that was taken for some work and is dropped after it leaves the session in use exactly
when it was before. -/
theorem dropIf_of_takeIf {checks : Bool} (h : g.takeIf checks = .ok g') (s : Session) :
    dropIf ⟨{ s with inUse := g'.session.inUse }, g'.guards⟩ checks =
      ⟨{ s with inUse := g.session.inUse }, g.guards⟩ := by
  cases checks with
  | false =>
    cases h
    rfl
  | true =>
    obtain ⟨free, rfl⟩ := take_eq_ok.1 h
    simp [dropIf, drop, Session.leave, free]

end Guarded

/-! ## 3. Calls -/

/-- What comes of a row: it is shaped, and the result is viewed as the caller wants it. -/
def RowShaper.result {α : Type} (s : RowShaper) (view : Item → Except MaterializeFault α) (row : Row)
    (state : ShapingState) : Except RunError α :=
  match ((s.shapeRow row).run state).1 with
  | .error fault => .error fault
  | .ok item => (view item).mapError .materialize

/-- The record of one call. -/
structure Call (α : Type) where
  /-- The store at the time of the call. -/
  store : Store
  /-- What the store was asked. -/
  asked : List StoreRequest
  /-- The rows that were shaped. -/
  shaped : List Row
  /-- The session and its guards during the work, unless there was none. -/
  held : Option Guarded
  outcome : Option (Except RunError α)

namespace Call

variable {α : Type}

/-- The call of an enumeration that has ended. -/
def idle (store : Store) : Call α := ⟨store, [], [], none, none⟩

/-- The call that found a live guard. -/
def refused (store : Store) : Call α := ⟨store, [], [], none, some (.error .concurrentUse)⟩

/-- The call gave out a result. -/
def Delivers (c : Call α) : Prop := ∃ a, c.outcome = some (.ok a)

/-- The call gave out what comes of the one row that it shaped, and no result without a row. -/
def Shapes (c : Call α) (s : RowShaper) (view : Item → Except MaterializeFault α)
    (state : ShapingState) : Prop :=
  (∃ row, c.shaped = [row] ∧ c.outcome = some (s.result view row state)) ∨
    c.shaped = [] ∧ ¬ c.Delivers

end Call

namespace Enumeration

variable {α : Type}

/-- The state in which an enumeration shapes its next row. -/
def shapingState (e : Enumeration) (s : Session) : ShapingState := ⟨s.tracked, e.perQuery, s.nextId⟩

/-- The rows that a step shapes of those that are left, and what it makes of them. -/
def stepOn (e : Enumeration) (view : Item → Except MaterializeFault α) (s : Session) :
    Except RunError (List Row) → List Row × Step α
  | .error fault => ([], e.fail s fault)
  | .ok [] => ([], ⟨none, { e with progress := .finished }, s⟩)
  | .ok (row :: rest) => ([row], e.shape view s row rest)

/-- A call, step by step: the guard is taken, the store is asked, a row is shaped, and the guard is
dropped. -/
def call (e : Enumeration) (view : Item → Except MaterializeFault α) (store : Store)
    (g : Guarded) : Call α × Enumeration × Guarded :=
  match e.progress with
  | .finished => (.idle store, e, g)
  | _ => match g.takeIf e.query.plan.threadSafetyChecks with
    | .error fault =>
      (⟨store, [], [], none, some (.error fault)⟩, { e with progress := .finished }, g)
    | .ok held =>
      let (asked, rows) := e.query.consult store e.progress
      let (shaped, step) := e.stepOn view held.session rows
      (⟨store, asked, shaped, some held, step.outcome⟩, step.enumeration,
        Guarded.dropIf ⟨step.session, held.guards⟩ e.query.plan.threadSafetyChecks)

theorem store_call (e : Enumeration) (view : Item → Except MaterializeFault α) (store : Store)
    (g : Guarded) : (e.call view store g).1.store = store := by
  unfold call
  split
  · rfl
  · split <;> rfl

/-- A call works when the enumeration has not ended and gets its guard. -/
theorem isSome_held_call (e : Enumeration) (view : Item → Except MaterializeFault α) (store : Store)
    (g : Guarded) : (e.call view store g).1.held.isSome ↔
      e.progress ≠ .finished ∧ ∃ held, g.takeIf e.query.plan.threadSafetyChecks = .ok held := by
  unfold call
  split
  · next ended => simp [ended, Call.idle]
  · next live =>
    have live : e.progress ≠ .finished := live
    cases g.takeIf e.query.plan.threadSafetyChecks <;> simp [live]

/-- Whether the session is in use is of no concern to the work. -/
theorem stepOn_inUse (e : Enumeration) (view : Item → Except MaterializeFault α) (s : Session)
    (inUse : Bool) (rows : Except RunError (List Row)) :
    e.stepOn view { s with inUse } rows =
      ((e.stepOn view s rows).1, { (e.stepOn view s rows).2 with
        session := { (e.stepOn view s rows).2.session with inUse } }) := by
  match rows with
  | .error fault => rfl
  | .ok [] => rfl
  | .ok (row :: rest) =>
    unfold stepOn shape
    dsimp only
    generalize
      ExceptT.run (e.query.plan.shaper.shapeRow row) ⟨s.tracked, e.perQuery, s.nextId⟩ = shaped
    rcases shaped with ⟨fault | item, state⟩
    · rfl
    · dsimp only
      unfold deliver
      dsimp only
      cases view item <;> rfl

theorem next_eq_stepOn {e : Enumeration} (live : e.progress ≠ .finished)
    (view : Item → Except MaterializeFault α) (store : Store) (s : Session) :
    e.next view store s = match e.checkUse s with
      | .error fault => e.fail s fault
      | .ok () => (e.stepOn view s (e.query.consult store e.progress).2).2 := by
  rw [← e.remaining_eq store]
  unfold next
  split
  · next ended => exact absurd ended live
  · cases e.checkUse s with
    | error fault => rfl
    | ok _ => match e.remaining store with
      | .error fault => rfl
      | .ok [] => rfl
      | .ok (row :: rest) => rfl

/-- An enumeration is refused when it gets no guard. -/
theorem checkUse_eq_takeIf (e : Enumeration) (g : Guarded) :
    e.checkUse g.session = (g.takeIf e.query.plan.threadSafetyChecks).map fun _ => () := by
  unfold checkUse Guarded.takeIf Guarded.take Session.enter
  cases e.query.plan.threadSafetyChecks with
  | false => rfl
  | true => cases g.session.inUse <;> rfl

theorem inUse_next (e : Enumeration) (view : Item → Except MaterializeFault α) (store : Store)
    (s : Session) : (e.next view store s).session.inUse = s.inUse := by
  by_cases ended : e.progress = .finished
  · simp [next, ended]
  · rw [next_eq_stepOn ended]
    cases e.checkUse s with
    | error fault => rfl
    | ok _ =>
      have kept := e.stepOn_inUse view s s.inUse (e.query.consult store e.progress).2
      exact congrArg (fun step => step.2.session.inUse) kept

/-- **A call gives the results of a step**, and leaves as many guards as it found. -/
theorem call_eq_next (e : Enumeration) (view : Item → Except MaterializeFault α) (store : Store)
    (g : Guarded) :
    (e.call view store g).1.outcome = (e.next view store g.session).outcome ∧
    (e.call view store g).2.1 = (e.next view store g.session).enumeration ∧
    (e.call view store g).2.2 = ⟨(e.next view store g.session).session, g.guards⟩ := by
  by_cases ended : e.progress = .finished
  · unfold call next
    simp [ended, Call.idle]
  · rw [next_eq_stepOn ended, checkUse_eq_takeIf]
    unfold call
    split
    · next h => exact absurd h ended
    · cases taken : g.takeIf e.query.plan.threadSafetyChecks with
      | error fault => exact ⟨rfl, rfl, rfl⟩
      | ok held =>
        have started := e.stepOn_inUse view g.session held.session.inUse
          (e.query.consult store e.progress).2
        have kept := e.stepOn_inUse view g.session g.session.inUse
          (e.query.consult store e.progress).2
        rw [← Guarded.session_of_takeIf taken] at started
        simp only [Except.map, started, Guarded.dropIf_of_takeIf taken, true_and]
        exact congrArg (fun step => Guarded.mk step.2.session g.guards) kept.symm

end Enumeration

/-! ## 4. Work is not refused -/

/-- Errors other than the refusal of a guard. -/
def IsWorkError (e : RunError) : Prop := e ≠ .concurrentUse

theorem isWorkError_query (e : QueryError) : IsWorkError (.query e) := nofun

theorem isWorkError_storage (fault : StorageFault) : IsWorkError (.storage fault) := nofun

theorem isWorkError_materialize (fault : MaterializeFault) : IsWorkError (.materialize fault) := nofun

theorem lift_failsOnly_work {α : Type} (x : Except QueryError α) :
    FailsOnly IsWorkError (RunError.lift x) := .lift fun e _ => isWorkError_query e

theorem documentId_failsOnly_work (key : List Scalar) : FailsOnly IsWorkError (documentId key) := by
  unfold documentId
  exact .ite (fun _ => .error (isWorkError_storage _)) fun _ =>
    .ite (fun _ => .error (isWorkError_storage _)) fun _ => .ok _

theorem PointLookup.request_failsOnly_work (l : PointLookup) (configured : Option String)
    (parameters : Parameters) : FailsOnly IsWorkError (l.request configured parameters) := by
  unfold request
  refine .bind (.mapM fun key _ => ?_) fun key _ => .bind ?_ fun partitionKey _ =>
    .bind (documentId_failsOnly_work key) fun id _ => .ok _
  · unfold keyValue
    split
    · exact .error (isWorkError_materialize _)
    · exact lift_failsOnly_work _
  · unfold partition
    split
    · exact .ok _
    · exact .map (lift_failsOnly_work _)
    · exact .ok _

theorem Store.answer_failsOnly_work (s : Store) (r : StoreRequest) :
    FailsOnly IsWorkError (s.answer r) := by
  cases r with
  | select r =>
    refine (r.select.run_failsOnly r.command.bindings r.layout
      (s.scope r.container r.partitionKey)).mono ?_
    rintro e (fault | _ | _ | _)
    · exact isWorkError_storage fault
    · exact isWorkError_query _
    · exact isWorkError_query _
    · exact nofun
  | lookup r => exact .ok _

namespace BoundQuery

theorem ask_failsOnly_work (q : BoundQuery) : FailsOnly IsWorkError q.ask := by
  unfold ask
  refine .bind ?_ fun _ _ => ?_
  · unfold checkContext
    exact .ite (fun _ => .ok ()) fun _ => .error nofun
  · unfold request
    cases q.source with
    | select s => exact .map (lift_failsOnly_work _)
    | lookup l => exact .map (l.request_failsOnly_work _ _)

theorem consult_failsOnly_work (q : BoundQuery) (store : Store) (p : Progress) :
    FailsOnly IsWorkError (q.consult store p).2 := by
  cases p with
  | pending => exact q.ask_failsOnly_work.bind fun r _ => store.answer_failsOnly_work r
  | reading rows => exact .ok rows
  | finished => exact .ok []

end BoundQuery

theorem stepClass_failsOnly_work :
    StepClass (fun m => Shaping.FailsOnly IsWorkError m) fun _ => True where
  pure := Shaping.FailsOnly.pure
  fail fault := .fail (isWorkError_materialize fault)
  bind hm hf := hm.bind hf
  freshId := Shaping.freshId_failsOnly
  findEntity := Shaping.findEntity_failsOnly
  recordEntity {mode} _ := Shaping.recordEntity_failsOnly mode

theorem RowShaper.shapeRow_failsOnly_work (s : RowShaper) (row : Row) :
    Shaping.FailsOnly IsWorkError (s.shapeRow row) :=
  mem_shapeRow stepClass_failsOnly_work (fun _ _ _ => trivial) row

theorem RowShaper.result_failsOnly_work {α : Type} (s : RowShaper)
    (view : Item → Except MaterializeFault α) (row : Row) (state : ShapingState) :
    FailsOnly IsWorkError (s.result view row state) := by
  intro fault h
  unfold result at h
  split at h
  · next shaped =>
    cases h
    exact s.shapeRow_failsOnly_work row state fault shaped
  · next item _ =>
    cases viewed : view item with
    | error mismatch =>
      rw [viewed] at h
      cases h
      exact isWorkError_materialize mismatch
    | ok a =>
      rw [viewed] at h
      cases h

/-! ## 5. What a call does -/

/-- What a call does to the progress of an enumeration, by the view that it is made with and the
state that it finds. -/
inductive Call.Steps {α : Type} (q : BoundQuery) (view : Item → Except MaterializeFault α)
    (state : ShapingState) : Progress → Call α → Progress → Prop where
  | ended (store : Store) : Steps q view state .finished (.idle store) .finished
  | refused {p : Progress} (live : p ≠ .finished) (checks : q.plan.threadSafetyChecks = true)
      (store : Store) : Steps q view state p (.refused store) .finished
  /-- There is no answer. -/
  | failed {p : Progress} (live : p ≠ .finished) {store : Store} (held : Guarded) {fault : RunError}
      (rows : (q.consult store p).2 = .error fault) (work : IsWorkError fault) :
      Steps q view state p ⟨store, (q.consult store p).1, [], some held, some (.error fault)⟩
        .finished
  /-- No row is left. -/
  | exhausted {p : Progress} (live : p ≠ .finished) {store : Store} (held : Guarded)
      (rows : (q.consult store p).2 = .ok []) :
      Steps q view state p ⟨store, (q.consult store p).1, [], some held, none⟩ .finished
  /-- The row cannot be shaped, or is not what the caller wants. -/
  | unfit {p : Progress} (live : p ≠ .finished) {store : Store} (held : Guarded) {row : Row}
      {rest : List Row} (rows : (q.consult store p).2 = .ok (row :: rest)) {fault : RunError}
      (made : q.plan.shaper.result view row state = .error fault) :
      Steps q view state p ⟨store, (q.consult store p).1, [row], some held, some (.error fault)⟩
        .finished
  /-- The result is what comes of the row. -/
  | delivered {p : Progress} (live : p ≠ .finished) {store : Store} (held : Guarded) {row : Row}
      {rest : List Row} (rows : (q.consult store p).2 = .ok (row :: rest)) {a : α}
      (made : q.plan.shaper.result view row state = .ok a) :
      Steps q view state p ⟨store, (q.consult store p).1, [row], some held, some (.ok a)⟩
        (.reading rest)

namespace Enumeration

variable {α : Type}

/-- Shaping a row gives what comes of it, and an error ends the enumeration. -/
theorem shape_cases (e : Enumeration) (view : Item → Except MaterializeFault α) (s : Session)
    (row : Row) (rest : List Row) :
    (e.shape view s row rest).enumeration.query = e.query ∧
    (e.shape view s row rest).outcome =
      some (e.query.plan.shaper.result view row (e.shapingState s)) ∧
    (e.shape view s row rest).enumeration.progress =
      match e.query.plan.shaper.result view row (e.shapingState s) with
      | .ok _ => .reading rest
      | .error _ => .finished := by
  unfold shape RowShaper.result shapingState
  dsimp only
  generalize ExceptT.run (e.query.plan.shaper.shapeRow row) ⟨s.tracked, e.perQuery, s.nextId⟩ =
    shaped
  rcases shaped with ⟨fault | item, state⟩
  · exact ⟨rfl, rfl, rfl⟩
  · dsimp only [deliver]
    cases view item <;> exact ⟨rfl, rfl, rfl⟩

/-- **What a call does.**  While it works, the session is held as its guard says. -/
theorem steps_call (e : Enumeration) (view : Item → Except MaterializeFault α) (store : Store)
    (g : Guarded) :
    (e.call view store g).2.1.query = e.query ∧
    Call.Steps e.query view (e.shapingState g.session) e.progress (e.call view store g).1
      (e.call view store g).2.1.progress ∧
    ∀ held, (e.call view store g).1.held = some held →
      g.takeIf e.query.plan.threadSafetyChecks = .ok held := by
  unfold call
  split
  · next ended =>
    rw [ended]
    exact ⟨rfl, .ended store, nofun⟩
  · next live =>
    have live : e.progress ≠ .finished := live
    cases taken : g.takeIf e.query.plan.threadSafetyChecks with
    | error fault =>
      obtain ⟨checks, rfl⟩ := Guarded.takeIf_eq_error taken
      exact ⟨rfl, .refused live checks store, nofun⟩
    | ok held =>
      -- a guard is nothing to shaping
      have state : e.shapingState g.session = e.shapingState held.session := by
        rw [Guarded.session_of_takeIf taken]
        rfl
      dsimp only
      refine ⟨?_, ?_, fun _ h => congrArg _ (Option.some.inj h)⟩
      · match (e.query.consult store e.progress).2 with
        | .error fault => rfl
        | .ok [] => rfl
        | .ok (row :: rest) => exact (e.shape_cases view held.session row rest).1
      · match hrows : (e.query.consult store e.progress).2 with
        | .error fault =>
          exact .failed live held hrows (e.query.consult_failsOnly_work store e.progress fault hrows)
        | .ok [] => exact .exhausted live held hrows
        | .ok (row :: rest) =>
          obtain ⟨-, outcome, progress⟩ := e.shape_cases view held.session row rest
          rw [← state] at outcome progress
          simp only [stepOn]
          rw [outcome, progress]
          cases made : e.query.plan.shaper.result view row (e.shapingState g.session) with
          | error fault => exact .unfit live held hrows made
          | ok a => exact .delivered live held hrows made

end Enumeration

end DocQuery
