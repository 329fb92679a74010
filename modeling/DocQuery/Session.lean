/-
# Sessions and enumerations

A session is one instance of a context: it holds the entities it tracks, and it does one thing at a
time.  An enumeration runs a bound query lazily: the rows are fetched by its first step and each
step shapes one of them.  An error ends it.
-/
import DocQuery.BoundQuery
import DocQuery.Materialize

namespace DocQuery

structure Session where
  tracked : IdentityMap
  /-- Whether an operation is under way. -/
  inUse : Bool
  /-- The number of the next entity instance. -/
  nextId : Nat

namespace Session

/-- A session that has tracked nothing. -/
def fresh : Session := ⟨.empty, false, 0⟩

instance : Inhabited Session := ⟨fresh⟩

/-- Begins an operation; only one may be under way. -/
def enter (s : Session) : Except RunError Session :=
  if s.inUse then .error .concurrentUse else .ok { s with inUse := true }

/-- Ends the operation that is under way. -/
def leave (s : Session) : Session := { s with inUse := false }

end Session

/-! ## 1. Views of results -/

namespace Item

def toScalar : Item → Except MaterializeFault Scalar
  | .value s => .ok s
  | .null => .ok .null
  | other => .error (.notAScalar other)

def toEntity : Item → Except MaterializeFault Item
  | .entity id entityType values embedded => .ok (.entity id entityType values embedded)
  | other => .error (.notAnEntity other)

/-- Null is a missing result; other results are viewed as they are. -/
def toOption {α : Type} (view : Item → Except MaterializeFault α) :
    Item → Except MaterializeFault (Option α)
  | .null => .ok none
  | other => (view other).map some

end Item

/-! ## 2. Enumerations -/

inductive Progress where
  | pending
  /-- Fetched; these rows have not been shaped yet. -/
  | reading (rows : List Row)
  | finished

structure Enumeration where
  query : BoundQuery
  progress : Progress
  /-- The identity map of this enumeration, if its plan asks for one. -/
  perQuery : Option IdentityMap

/-- A new enumeration of a bound query. -/
def BoundQuery.enumerate (q : BoundQuery) : Enumeration where
  query := q
  progress := .pending
  perQuery := if q.plan.standaloneStateManager then some .empty else none

/-- The rows that a pending or reading enumeration has before it. -/
def Enumeration.remaining (e : Enumeration) (store : Store) : Except RunError (List Row) :=
  match e.progress with
  | .finished => .ok []
  | .reading rows => .ok rows
  | .pending => do
    e.query.checkContext
    e.query.fetch store

/-- What a step leads to. -/
structure Step (α : Type) where
  /-- Nothing at the end. -/
  outcome : Option (Except RunError α)
  enumeration : Enumeration
  session : Session

namespace Enumeration

variable {α : Type}

/-- Refuses to begin while an operation is under way, if the plan asks for it. -/
def checkUse (e : Enumeration) (s : Session) : Except RunError Unit :=
  if e.query.plan.threadSafetyChecks && s.inUse then .error .concurrentUse else .ok ()

def fail (e : Enumeration) (s : Session) (fault : RunError) : Step α :=
  ⟨some (.error fault), { e with progress := .finished }, s⟩

/-- Views a shaped row. -/
def deliver (e : Enumeration) (view : Item → Except MaterializeFault α) (s : Session)
    (rest : List Row) : Except RunError Item → Step α
  | .error fault => e.fail s fault
  | .ok item => match view item with
    | .error fault => e.fail s (.materialize fault)
    | .ok a => ⟨some (.ok a), { e with progress := .reading rest }, s⟩

/-- Shapes a row and views the result. -/
def shape (e : Enumeration) (view : Item → Except MaterializeFault α) (s : Session) (row : Row)
    (rest : List Row) : Step α :=
  let shaped := (e.query.plan.shaper.shapeRow row).run ⟨s.tracked, e.perQuery, s.nextId⟩
  deliver { e with perQuery := shaped.2.perQuery } view
    { s with tracked := shaped.2.tracked, nextId := shaped.2.nextId } rest shaped.1

/-- One step.  The checks come first, and a finished enumeration makes none. -/
def next (e : Enumeration) (view : Item → Except MaterializeFault α) (store : Store) (s : Session) :
    Step α :=
  match e.progress with
  | .finished => ⟨none, e, s⟩
  | _ => match e.checkUse s with
    | .error fault => e.fail s fault
    | .ok () => match e.remaining store with
      | .error fault => e.fail s fault
      | .ok [] => ⟨none, { e with progress := .finished }, s⟩
      | .ok (row :: rest) => e.shape view s row rest

/-! ## 3. Running to the end -/

/-- Bounds the steps that are left: a pending enumeration is above all others. -/
def rank (e : Enumeration) : Nat × Nat :=
  match e.progress with
  | .pending => (1, 0)
  | .reading rows => (0, rows.length)
  | .finished => (0, 0)

theorem deliver_ok {e : Enumeration} {view : Item → Except MaterializeFault α} {s : Session}
    {rest : List Row} {shaped : Except RunError Item} {a : α}
    (h : (e.deliver view s rest shaped).outcome = some (.ok a)) :
    (e.deliver view s rest shaped).enumeration.progress = .reading rest := by
  cases shaped with
  | error fault => simp [deliver, fail] at h
  | ok item =>
    cases hv : view item with
    | error fault => simp [deliver, hv, fail] at h
    | ok b => simp [deliver, hv]

theorem next_ok {e : Enumeration} {view : Item → Except MaterializeFault α} {store : Store}
    {s : Session} {a : α} (h : (e.next view store s).outcome = some (.ok a)) :
    ∃ row rest, e.remaining store = .ok (row :: rest) ∧
      (e.next view store s).enumeration.progress = .reading rest := by
  unfold next at h ⊢
  split at h
  · simp at h
  · split at h
    · simp [fail] at h
    · split at h
      · simp [fail] at h
      · simp at h
      · next row rest hr => exact ⟨row, rest, hr, deliver_ok h⟩

/-- A step with a result brings the end nearer. -/
theorem next_rank {e : Enumeration} {view : Item → Except MaterializeFault α} {store : Store}
    {s : Session} {a : α} (h : (e.next view store s).outcome = some (.ok a)) :
    Prod.Lex (· < ·) (· < ·) (e.next view store s).enumeration.rank e.rank := by
  obtain ⟨row, rest, hr, hn⟩ := next_ok h
  rw [rank, hn]
  rcases e with ⟨query, progress, perQuery⟩
  cases progress with
  | pending => exact .left _ _ (by decide)
  | reading rows =>
    simp only [remaining, Except.ok.injEq] at hr
    subst hr
    exact .right _ (by simp)
  | finished => simp [remaining] at hr

/-- The outcomes of all steps.  An error is the last of them. -/
def outcomes (e : Enumeration) (view : Item → Except MaterializeFault α) (store : Store)
    (s : Session) : List (Except RunError α) × Session :=
  match h : (e.next view store s).outcome with
  | none => ([], (e.next view store s).session)
  | some (.error fault) => ([.error fault], (e.next view store s).session)
  | some (.ok a) =>
    have := next_rank h
    let (rest, s') :=
      (e.next view store s).enumeration.outcomes view store (e.next view store s).session
    (.ok a :: rest, s')
termination_by e.rank
decreasing_by exact this

/-- All results, or the error; what the steps before it have tracked stays. -/
def toList (e : Enumeration) (view : Item → Except MaterializeFault α) (store : Store)
    (s : Session) : Except RunError (List α) × Session :=
  let (outcomes, s) := e.outcomes view store s
  (outcomes.mapM id, s)

end Enumeration

end DocQuery
