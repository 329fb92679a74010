/-
# Enumerations in the course of a session

The calls of an enumeration are interleaved with those of others, with changes of the store, and
with operations that take and drop guards of the session.  Whatever the order, each enumeration
lives one life (`Call.LifeCycle`):

* its first call asks the store, once, and the others shape the rows of that answer, in their
  order;
* its outcomes are results, then at most one error, then nothing;
* without an error all rows of the answer have been shaped when the end is reached;
* after its end nothing happens any more, and a call that finds a live guard ends the enumeration
  and touches nothing else.

`Call.History` holds of the calls of an enumeration up to any time in a run, because the record of
a run grows by `Call.Steps`; the parts of a life are inductions over it.  The guards of the
session are sound at any time, also while a call works: at most one is live, and the session is in
use exactly while one is (`Guarded.Sound`).

`SessionRun.calls_live_once` is about every run of events, and about every further call: it is a
step of its enumeration, and gives out what comes of the one row that it shapes (`Call.Shapes`).
-/
import DocQuery.Proofs.EnumerationCalls
import DocQuery.Proofs.Inlining
import Mathlib

namespace DocQuery

variable {α : Type}

/-! ## 1. Histories -/

/-- The rows that were fetched and not shaped yet. -/
def Progress.rest : Progress → List Row
  | .reading rows => rows
  | _ => []

namespace Call

/-- The calls of an enumeration of a query, and the progress they have led to. -/
inductive History (q : BoundQuery) : List (Call α) → Progress → Prop where
  | begun : History q [] .pending
  | call {cs : List (Call α)} {p p' : Progress} {c : Call α}
      {view : Item → Except MaterializeFault α} {state : ShapingState} (earlier : History q cs p)
      (last : Steps q view state p c p') : History q (cs ++ [c]) p'

/-- The rows that the store answers a call with. -/
def answer (c : Call α) : List Row := c.asked.flatMap fun r => (c.store.answer r).toOption.getD []

variable {q : BoundQuery} {view : Item → Except MaterializeFault α} {state : ShapingState}
  {p p' : Progress} {c : Call α} {cs : List (Call α)}

theorem Steps.finished_iff (h : Steps q view state p c p') :
    p' = .finished ↔ p = .finished ∨ ¬ c.Delivers := by
  cases h with
  | ended store => simp
  | refused live checks store => simp [Delivers, Call.refused]
  | failed live held rows work => simp [Delivers]
  | exhausted live held rows => simp [Delivers]
  | unfit live held rows made => simp [Delivers]
  | delivered live held rows made => simp [Delivers, live]

theorem Steps.ne_pending (h : Steps q view state p c p') : p' ≠ .pending := by
  cases h <;> nofun

theorem Steps.eq_idle (h : Steps q view state .finished c p') : c = .idle c.store := by
  cases h with
  | ended store => rfl
  | _ => contradiction

/-- The first call asks what the query asks for, if it is let in. -/
theorem Steps.asked_pending (h : Steps q view state .pending c p') :
    c.asked = if c.held.isSome then q.ask.toOption.toList else [] := by
  cases h <;> rfl

theorem Steps.asked_later (h : Steps q view state p c p') (later : p ≠ .pending) : c.asked = [] := by
  have nothing : ∀ store, (q.consult store p).1 = [] := by
    intro store
    cases p with
    | pending => exact absurd rfl later
    | reading rows => rfl
    | finished => rfl
  cases h with
  | ended store => rfl
  | refused live checks store => rfl
  | failed live held rows work => exact nothing _
  | exhausted live held rows => exact nothing _
  | unfit live held rows made => exact nothing _
  | delivered live held rows made => exact nothing _

/-- What a call that comes to rows has before it: those that are left, or the answer. -/
theorem rest_append_answer {store : Store} {rows : List Row}
    (h : (q.consult store p).2 = .ok rows) (shaped : List Row) (held : Option Guarded)
    (outcome : Option (Except RunError α)) :
    p.rest ++ answer ⟨store, (q.consult store p).1, shaped, held, outcome⟩ = rows := by
  cases p with
  | pending =>
    obtain ⟨r, hask, hrows⟩ := bind_eq_ok.1 h
    simp [Progress.rest, answer, BoundQuery.consult, hask, hrows, Except.toOption]
  | reading rest =>
    cases h
    simp [Progress.rest, answer, BoundQuery.consult]
  | finished =>
    cases h
    rfl

/-- **A call shapes the next row**, and leaves the others unless it fails. -/
theorem Steps.rows (h : Steps q view state p c p') :
    c.shaped <+: p.rest ++ c.answer ∧
    ((∀ fault, c.outcome ≠ some (.error fault)) → c.shaped ++ p'.rest = p.rest ++ c.answer) := by
  cases h with
  | ended store => exact ⟨List.nil_prefix, fun _ => rfl⟩
  | refused live checks store => exact ⟨List.nil_prefix, fun unfailed => absurd rfl (unfailed _)⟩
  | failed live held rows work => exact ⟨List.nil_prefix, fun unfailed => absurd rfl (unfailed _)⟩
  | exhausted live held rows =>
    rw [rest_append_answer rows]
    exact ⟨List.nil_prefix, fun _ => rfl⟩
  | unfit live held rows made =>
    rw [rest_append_answer rows]
    exact ⟨⟨_, rfl⟩, fun unfailed => absurd rfl (unfailed _)⟩
  | delivered live held rows made =>
    rw [rest_append_answer rows]
    exact ⟨⟨_, rfl⟩, fun _ => rfl⟩

/-- **A result comes from the row that was shaped for it**, and so does an error once there is a
row. -/
theorem Steps.shapes (h : Steps q view state p c p') : c.Shapes q.plan.shaper view state := by
  cases h with
  | ended store => exact .inr ⟨rfl, nofun⟩
  | refused live checks store => exact .inr ⟨rfl, nofun⟩
  | failed live held rows work => exact .inr ⟨rfl, nofun⟩
  | exhausted live held rows => exact .inr ⟨rfl, nofun⟩
  | unfit live held rows made => exact .inl ⟨_, rfl, congrArg some made.symm⟩
  | delivered live held rows made => exact .inl ⟨_, rfl, congrArg some made.symm⟩

/-- Only a call that found a live guard, with checks on, is refused. -/
theorem Steps.eq_refused (h : Steps q view state p c p')
    (refused : c.outcome = some (.error .concurrentUse)) : q.plan.threadSafetyChecks = true := by
  cases h with
  | ended store => cases refused
  | refused live checks store => exact checks
  | failed live held rows work =>
    cases refused
    exact absurd rfl work
  | exhausted live held rows => cases refused
  | unfit live held rows made =>
    cases refused
    exact absurd rfl (q.plan.shaper.result_failsOnly_work view _ state _ made)
  | delivered live held rows made => cases refused

/-! ## 2. The life of an enumeration -/

theorem History.pending_iff (h : History q cs p) : p = .pending ↔ cs = [] := by
  cases h with
  | begun => simp
  | call earlier last => simp [last.ne_pending]

theorem History.finished_iff (h : History q cs p) : p = .finished ↔ ∃ c ∈ cs, ¬ c.Delivers := by
  induction h with
  | begun => simp
  | call earlier last ih =>
    rw [last.finished_iff, ih]
    simp [or_and_right, exists_or]

/-- Only the first call asks, and it asks what the query does. -/
theorem History.asked (h : History q cs p) : ∀ {first : Call α} {later : List (Call α)},
    cs = first :: later → (first.asked = if first.held.isSome then q.ask.toOption.toList else []) ∧
      ∀ c ∈ later, c.asked = [] := by
  induction h with
  | begun => nofun
  | @call cs p p' c view state earlier last ih =>
    intro first later split
    cases cs with
    | nil =>
      cases split
      have first : p = .pending := earlier.pending_iff.2 rfl
      subst first
      exact ⟨last.asked_pending, nofun⟩
    | cons f before =>
      obtain ⟨rfl, rfl⟩ := List.cons.inj split
      obtain ⟨asked, quiet⟩ := ih rfl
      have started : p ≠ .pending := fun pending => nomatch earlier.pending_iff.1 pending
      refine ⟨asked, fun d hd => ?_⟩
      rcases List.mem_append.1 hd with hd | hd
      · exact quiet d hd
      · rw [List.mem_singleton.1 hd]
        exact last.asked_later started

/-- The rows that were shaped come first in the answer; without an error those left come after. -/
theorem History.rows (h : History q cs p) :
    cs.flatMap (·.shaped) <+: cs.flatMap answer ∧
    ((∀ c ∈ cs, ∀ fault, c.outcome ≠ some (.error fault)) →
      cs.flatMap (·.shaped) ++ p.rest = cs.flatMap answer) := by
  induction h with
  | begun => exact ⟨List.prefix_rfl, fun _ => rfl⟩
  | @call cs p p' c view state earlier last ih =>
    obtain ⟨before, all⟩ := ih
    obtain ⟨next, left⟩ := last.rows
    simp only [List.flatMap_append, List.flatMap_singleton]
    constructor
    · by_cases ended : p = .finished
      · subst ended
        rw [last.eq_idle]
        simpa [answer, idle] using before
      · have unfailed : ∀ c ∈ cs, ∀ fault, c.outcome ≠ some (.error fault) := fun c hc fault failed =>
          ended (earlier.finished_iff.2 ⟨c, hc, by simp [Delivers, failed]⟩)
        rw [← all unfailed, List.append_assoc]
        exact (List.prefix_append_right_inj _).2 next
    · intro unfailed
      rw [List.append_assoc, left (unfailed c (by simp)), ← List.append_assoc,
        all fun d hd => unfailed d (List.mem_append_left _ hd)]

/-- Results, then at most one error, then nothing. -/
theorem History.outcomes (h : History q cs p) : ∃ (results : List α) (errors : List RunError)
    (n : Nat), errors.length ≤ 1 ∧
      cs.map (·.outcome) = results.map (fun a => some (.ok a)) ++
        errors.map (fun fault => some (.error fault)) ++ List.replicate n none ∧
      (p ≠ .finished → errors = [] ∧ n = 0) := by
  induction h with
  | begun => exact ⟨[], [], 0, by simp⟩
  | @call cs p p' c view state earlier last ih =>
    obtain ⟨results, errors, n, one, outcomes, running⟩ := ih
    rw [List.map_append, outcomes, List.map_singleton]
    by_cases ended : p = .finished
    · subst ended
      refine ⟨results, errors, n + 1, one, ?_,
        fun live => absurd (last.finished_iff.2 (.inl rfl)) live⟩
      rw [last.eq_idle, List.replicate_succ', ← List.append_assoc]
      rfl
    · obtain ⟨rfl, rfl⟩ := running ended
      have still : p' ≠ .finished → c.Delivers := fun live =>
        Classical.not_not.1 fun undelivered => live (last.finished_iff.2 (.inr undelivered))
      match outcome : c.outcome with
      | some (.ok a) => exact ⟨results ++ [a], [], 0, by simp⟩
      | some (.error fault) =>
        refine ⟨results, [fault], 0, by simp, by simp, fun live => ?_⟩
        obtain ⟨a, ha⟩ := still live
        rw [outcome] at ha
        cases ha
      | none =>
        refine ⟨results, [], 1, by simp, by simp, fun live => ?_⟩
        obtain ⟨a, ha⟩ := still live
        rw [outcome] at ha
        cases ha

/-- After the end of an enumeration its calls do nothing. -/
theorem History.quiet (h : History q cs p) :
    cs.Pairwise fun c d => ¬ c.Delivers → d = .idle d.store := by
  induction h with
  | begun => exact .nil
  | @call cs p p' c view state earlier last ih =>
    refine List.pairwise_append.2 ⟨ih, List.pairwise_singleton .., ?_⟩
    intro d hd e he undelivered
    rw [List.mem_singleton.1 he]
    have ended : p = .finished := earlier.finished_iff.2 ⟨d, hd, undelivered⟩
    subst ended
    exact last.eq_idle

theorem History.refused (h : History q cs p) {c : Call α} (hc : c ∈ cs)
    (refused : c.outcome = some (.error .concurrentUse)) : q.plan.threadSafetyChecks = true := by
  induction h with
  | begun => exact absurd hc List.not_mem_nil
  | call earlier last ih =>
    rcases List.mem_append.1 hc with hc | hc
    · exact ih hc
    · rw [List.mem_singleton.1 hc] at refused
      exact last.eq_refused refused

/-- What the calls of an enumeration of a query do, in their order. -/
structure LifeCycle (q : BoundQuery) (cs : List (Call α)) : Prop where
  /-- The first call asks the store once, unless it is refused, in a wrong context, or without a
  request; the calls after it do not ask. -/
  asks : ∀ first later, cs = first :: later → first.asked.length ≤ 1 ∧
    (∀ r, r ∈ first.asked ↔ first.held.isSome ∧ q.checkContext = .ok () ∧ q.request = .ok r) ∧
    ∀ c ∈ later, c.asked = []
  /-- The rows that are shaped are those of the answer to the first call, in their order. -/
  shapes : cs.flatMap (·.shaped) <+: cs.flatMap answer
  /-- Without an error, all rows of the answer are shaped before the end. -/
  complete : (∃ c ∈ cs, c.outcome = none) → (∀ c ∈ cs, ∀ fault, c.outcome ≠ some (.error fault)) →
    cs.flatMap (·.shaped) = cs.flatMap answer
  /-- The outcomes are results, then at most one error, then nothing. -/
  outcomes : ∃ (results : List α) (errors : List RunError) (n : Nat), errors.length ≤ 1 ∧
    cs.map (·.outcome) = results.map (fun a => some (.ok a)) ++
      errors.map (fun fault => some (.error fault)) ++ List.replicate n none
  /-- Calls after the end do nothing. -/
  quiet : cs.Pairwise fun c d => ¬ c.Delivers → d = .idle d.store
  /-- Without checks no call is refused. -/
  unrefused : q.plan.threadSafetyChecks = false → ∀ c ∈ cs, c.outcome ≠ some (.error .concurrentUse)

/-- **An enumeration lives one life.** -/
theorem History.lifeCycle (h : History q cs p) : LifeCycle q cs where
  asks first later split := by
    obtain ⟨asked, quiet⟩ := h.asked split
    refine ⟨?_, fun r => ?_, quiet⟩
    · rw [asked]
      cases first.held with
      | none => exact Nat.zero_le 1
      | some held => cases q.ask.toOption <;> simp
    · rw [asked, ← BoundQuery.ask_eq_ok]
      cases first.held with
      | none => simp
      | some held => cases q.ask <;> simp [Except.toOption, eq_comm]
  shapes := h.rows.1
  complete := by
    rintro ⟨c, hc, none⟩ unfailed
    have ended : p = .finished := h.finished_iff.2 ⟨c, hc, by simp [Delivers, none]⟩
    rw [← h.rows.2 unfailed, ended]
    exact (List.append_nil _).symm
  outcomes := by
    obtain ⟨results, errors, n, one, outcomes, -⟩ := h.outcomes
    exact ⟨results, errors, n, one, outcomes⟩
  quiet := h.quiet
  unrefused unchecked c hc refused := by
    rw [h.refused hc refused] at unchecked
    cases unchecked

end Call

/-! ## 3. Runs -/

/-- A session and a store with what was begun in them, and the calls made so far, each with the
position of its enumeration. -/
structure SessionRun (α : Type) where
  store : Store
  guarded : Guarded
  enumerations : List Enumeration
  calls : List (Nat × Call α)

namespace SessionRun

/-- What may happen next. -/
inductive Event (α : Type) where
  | begin (q : BoundQuery)
  /-- An enumeration is asked for its next result, viewed as the caller wants it. -/
  | next (index : Nat) (view : Item → Except MaterializeFault α)
  /-- The store holds something else from now on. -/
  | change (store : Store)
  /-- A guard is asked for. -/
  | take
  /-- A live guard is dropped. -/
  | drop

/-- A session in which nothing was begun. -/
def start (store : Store) (session : Session) : SessionRun α := ⟨store, ⟨session, 0⟩, [], []⟩

/-- What a call makes of the run. -/
def called (r : SessionRun α) (index : Nat) (result : Call α × Enumeration × Guarded) :
    SessionRun α where
  store := r.store
  guarded := result.2.2
  enumerations := r.enumerations.set index result.2.1
  calls := r.calls ++ [(index, result.1)]

def after (r : SessionRun α) : Event α → SessionRun α
  | .begin q => { r with enumerations := r.enumerations ++ [q.enumerate] }
  | .next index view => match r.enumerations[index]? with
    | none => r
    | some e => r.called index (e.call view r.store r.guarded)
  | .change store => { r with store }
  | .take => match r.guarded.take with
    | .error _ => r
    | .ok guarded => { r with guarded }
  | .drop => if r.guarded.guards = 0 then r else { r with guarded := r.guarded.drop }

/-- The run after one event after another. -/
def perform (r : SessionRun α) (events : List (Event α)) : SessionRun α := events.foldl after r

/-- The calls of one enumeration. -/
def callsOf (r : SessionRun α) (index : Nat) : List (Call α) :=
  (r.calls.filter (·.1 == index)).map Prod.snd

variable {r : SessionRun α} {index : Nat}

theorem callsOf_called (r : SessionRun α) (index i : Nat) (result : Call α × Enumeration × Guarded) :
    (r.called index result).callsOf i =
      if index = i then r.callsOf i ++ [result.1] else r.callsOf i := by
  unfold callsOf called
  by_cases h : index = i <;> simp [h]

/-- What holds at any time in a run. -/
structure Sound (r : SessionRun α) : Prop where
  guarded : r.guarded.Sound
  /-- While a call works, at most its own guard is live. -/
  held : ∀ c ∈ r.calls, ∀ g, c.2.held = some g → g.Sound
  histories : ∀ i e, r.enumerations[i]? = some e → Call.History e.query (r.callsOf i) e.progress
  /-- Nothing is called before it begins. -/
  unbegun : ∀ i, r.enumerations.length ≤ i → r.callsOf i = []

theorem sound_start (store : Store) {session : Session} (free : session.inUse = false) :
    (start store session : SessionRun α).Sound where
  guarded := ⟨Nat.zero_le 1, by simp [start, free]⟩
  held _ hc := absurd hc List.not_mem_nil
  histories _ _ he := nomatch (List.getElem?_nil.symm.trans he)
  unbegun _ _ := rfl

theorem Sound.called (h : r.Sound) {e : Enumeration} (he : r.enumerations[index]? = some e)
    (view : Item → Except MaterializeFault α) :
    (r.called index (e.call view r.store r.guarded)).Sound := by
  obtain ⟨query, steps, work⟩ := e.steps_call view r.store r.guarded
  obtain ⟨-, -, left⟩ := e.call_eq_next view r.store r.guarded
  have bound : index < r.enumerations.length := (List.getElem?_eq_some_iff.1 he).1
  refine ⟨?_, ?_, ?_, ?_⟩
  · refine ⟨?_, ?_⟩
    · rw [SessionRun.called, left]
      exact h.guarded.atMostOne
    · rw [SessionRun.called, left, Enumeration.inUse_next]
      exact h.guarded.inUse
  · intro c hc g hg
    rcases List.mem_append.1 hc with hc | hc
    · exact h.held c hc g hg
    · rw [List.mem_singleton.1 hc] at hg
      exact h.guarded.takeIf (work g hg)
  · intro i e' he'
    rw [callsOf_called]
    simp only [SessionRun.called] at he'
    by_cases hi : index = i
    · subst hi
      rw [List.getElem?_set_self bound] at he'
      cases he'
      rw [if_pos rfl, query]
      exact (h.histories index e he).call steps
    · rw [List.getElem?_set_ne hi] at he'
      rw [if_neg hi]
      exact h.histories i e' he'
  · intro i hi
    simp only [SessionRun.called, List.length_set] at hi
    rw [callsOf_called, if_neg (by omega)]
    exact h.unbegun i hi

theorem Sound.after (h : r.Sound) (event : Event α) : (r.after event).Sound := by
  cases event with
  | begin q =>
    refine ⟨h.guarded, h.held, ?_, ?_⟩
    · intro i e he
      rw [show (r.after (.begin q)).callsOf i = r.callsOf i from rfl]
      simp only [SessionRun.after, List.getElem?_append] at he
      split at he
      · exact h.histories i e he
      · next past =>
        have := List.mem_singleton.1 (List.mem_of_getElem? he)
        subst this
        rw [h.unbegun i (Nat.not_lt.1 past)]
        exact .begun
    · intro i hi
      simp only [SessionRun.after, List.length_append, List.length_singleton] at hi
      exact h.unbegun i (by omega)
  | next index view =>
    simp only [SessionRun.after]
    split
    · exact h
    · next e he => exact h.called he view
  | change store => exact ⟨h.guarded, h.held, h.histories, h.unbegun⟩
  | take =>
    simp only [SessionRun.after]
    split
    · exact h
    · next g hg => exact ⟨h.guarded.take hg, h.held, h.histories, h.unbegun⟩
  | drop =>
    simp only [SessionRun.after]
    split
    · exact h
    · exact ⟨h.guarded.drop, h.held, h.histories, h.unbegun⟩

theorem Sound.perform : ∀ {events : List (Event α)} {r : SessionRun α}, r.Sound →
    (r.perform events).Sound
  | [], _, h => h
  | event :: _, _, h => (h.after event).perform

/-! ## 4. Calls in a run -/

/-- An enumeration has ended. -/
def Ended (r : SessionRun α) (index : Nat) : Prop := ∃ c ∈ r.callsOf index, ¬ c.Delivers

theorem Sound.ended_iff (h : r.Sound) {e : Enumeration} (he : r.enumerations[index]? = some e) :
    r.Ended index ↔ e.progress = .finished := (h.histories index e he).finished_iff.symm

/-- A call is a step of its enumeration, and leaves the store and the guards as they are.  It works
unless the enumeration has ended or is kept out by a live guard, and what it gives out comes from
the row that it shapes. -/
theorem Sound.after_next (h : r.Sound) {e : Enumeration} (he : r.enumerations[index]? = some e)
    (view : Item → Except MaterializeFault α) : ∃ c : Call α, c.store = r.store ∧
    c.outcome = (e.next view r.store r.guarded.session).outcome ∧
    c.Shapes e.query.plan.shaper view (e.shapingState r.guarded.session) ∧
    (c.held.isSome ↔
      ¬ r.Ended index ∧ (e.query.plan.threadSafetyChecks = false ∨ r.guarded.guards = 0)) ∧
    r.after (.next index view) =
      ⟨r.store, ⟨(e.next view r.store r.guarded.session).session, r.guarded.guards⟩,
        r.enumerations.set index (e.next view r.store r.guarded.session).enumeration,
        r.calls ++ [(index, c)]⟩ := by
  obtain ⟨outcome, enumeration, left⟩ := e.call_eq_next view r.store r.guarded
  obtain ⟨-, steps, -⟩ := e.steps_call view r.store r.guarded
  refine ⟨_, e.store_call view r.store r.guarded, outcome, steps.shapes, ?_, ?_⟩
  · rw [e.isSome_held_call, h.guarded.takeIf_iff, h.ended_iff he]
  · simp only [SessionRun.after, he, SessionRun.called, enumeration, left]

/-- A call after the end is recorded, and that is all. -/
theorem Sound.after_next_of_ended (h : r.Sound) {e : Enumeration}
    (he : r.enumerations[index]? = some e) (ended : r.Ended index)
    (view : Item → Except MaterializeFault α) :
    r.after (.next index view) = { r with calls := r.calls ++ [(index, .idle r.store)] } := by
  have finished := (h.ended_iff he).1 ended
  have idle : e.call view r.store r.guarded = (.idle r.store, e, r.guarded) := by
    unfold Enumeration.call
    simp [finished]
  have kept : r.enumerations.set index e = r.enumerations := by
    obtain ⟨bound, rfl⟩ := List.getElem?_eq_some_iff.1 he
    exact List.set_getElem_self bound
  simp only [SessionRun.after, he, SessionRun.called, idle, kept]

/-- A call that finds a live guard ends its enumeration, and that is all. -/
theorem Sound.after_next_of_guarded (h : r.Sound) {e : Enumeration}
    (he : r.enumerations[index]? = some e) (live : ¬ r.Ended index)
    (checks : e.query.plan.threadSafetyChecks = true) (guarded : r.guarded.guards ≠ 0)
    (view : Item → Except MaterializeFault α) :
    r.after (.next index view) = { r with
      enumerations := r.enumerations.set index { e with progress := .finished }
      calls := r.calls ++ [(index, .refused r.store)] } := by
  have refused : e.call view r.store r.guarded =
      (.refused r.store, { e with progress := .finished }, r.guarded) := by
    have unfinished : e.progress ≠ .finished := fun finished => live ((h.ended_iff he).2 finished)
    have taken : r.guarded.takeIf e.query.plan.threadSafetyChecks = .error .concurrentUse := by
      rw [checks]
      exact h.guarded.take_refused guarded
    unfold Enumeration.call
    split
    · next finished => exact absurd finished unfinished
    · rw [taken]
      rfl
  simp only [SessionRun.after, he, SessionRun.called, refused]

/-- **Enumerations live one life in every run of a session.**  At any time at most one guard is
live, and the session is in use exactly while one is, also while a call works.  The calls of each
enumeration make up its life.  A further call is a step of the enumeration: it gives out what comes
of the one row that it shapes, leaves the store, the guards and the session's flag as it finds them,
does nothing after the end, is refused while a guard is live if checks are on, and else works. -/
theorem calls_live_once (store : Store) {session : Session} (free : session.inUse = false)
    (events : List (Event α)) :
    let r : SessionRun α := (start store session).perform events
    r.guarded.Sound ∧
    (∀ c ∈ r.calls, ∀ g, c.2.held = some g → g.Sound) ∧
    ∀ i e, r.enumerations[i]? = some e →
      Call.LifeCycle e.query (r.callsOf i) ∧
      ∀ view : Item → Except MaterializeFault α,
        let step := e.next view r.store r.guarded.session
        step.session.inUse = r.guarded.session.inUse ∧
        (∃ c : Call α, c.store = r.store ∧ c.outcome = step.outcome ∧
          c.Shapes e.query.plan.shaper view (e.shapingState r.guarded.session) ∧
          (c.held.isSome ↔
            ¬ r.Ended i ∧ (e.query.plan.threadSafetyChecks = false ∨ r.guarded.guards = 0)) ∧
          r.after (.next i view) = ⟨r.store, ⟨step.session, r.guarded.guards⟩,
            r.enumerations.set i step.enumeration, r.calls ++ [(i, c)]⟩) ∧
        (r.Ended i →
          r.after (.next i view) = { r with calls := r.calls ++ [(i, .idle r.store)] }) ∧
        (¬ r.Ended i → e.query.plan.threadSafetyChecks = true → r.guarded.guards ≠ 0 →
          r.after (.next i view) = { r with
            enumerations := r.enumerations.set i { e with progress := .finished }
            calls := r.calls ++ [(i, .refused r.store)] }) := by
  have sound : ((start store session).perform events : SessionRun α).Sound :=
    (sound_start store free).perform
  refine ⟨sound.guarded, sound.held, fun i e he => ⟨(sound.histories i e he).lifeCycle, ?_⟩⟩
  intro view
  refine ⟨e.inUse_next view _ _, sound.after_next he view, ?_, ?_⟩
  · intro ended
    exact sound.after_next_of_ended he ended view
  · intro live checks guarded
    exact sound.after_next_of_guarded he live checks guarded view

/-- A query for posts under checks. -/
def taggedQuery : BoundQuery where
  plan := ⟨.select "" "" taggedPosts, .read (.path []) .int32 false, "Posts", none, false, true, ⟨[]⟩⟩
  context := ⟨"Posts", .ofList [], .noTracking, .document, taggedParameters⟩
  source := .select taggedPosts

/-- One enumeration is refused.  Another one asks the store at its first call; that the store is
empty from then on is nothing to it. -/
def taggedRun : SessionRun Item :=
  (start postStore .fresh).perform [.begin taggedQuery, .begin taggedQuery, .take, .next 0 .ok,
    .drop, .next 1 .ok, .change .empty, .next 1 .ok, .next 0 .ok, .next 1 .ok, .next 1 .ok]

/-- The first enumeration is refused and stays ended.  The second gives out both posts of its
answer, although the store was emptied after its first call, and asks no more. -/
theorem calls_live_once_taggedRun :
    (taggedRun.callsOf 0).map (·.outcome.map Except.toOption) = [some none, none] ∧
    (taggedRun.callsOf 1).map (·.outcome.map Except.toOption) =
      [some (some (.value (.int32 2))), some (some (.value (.int32 3))), none, none] ∧
    taggedRun.calls.map (fun c => (c.1, c.2.asked.length, c.2.shaped.length)) =
      [(0, 0, 0), (1, 1, 1), (1, 0, 1), (0, 0, 0), (1, 0, 0), (1, 0, 0)] ∧
    ∀ i e, taggedRun.enumerations[i]? = some e → Call.LifeCycle e.query (taggedRun.callsOf i) :=
  ⟨rfl, by cbv, by cbv, fun i e he => ((calls_live_once postStore rfl _).2.2 i e he).1⟩

end SessionRun

end DocQuery
