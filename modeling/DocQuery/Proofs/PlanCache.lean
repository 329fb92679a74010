/-
# Cached plans are fresh plans

A plan cache answers a request with the plan that some EARLIER request with the same key was
given.  That is right only if requests with one key are requests for one plan, and a key is much
less than what compilation reads: of the shape it holds a digest, and of the settings a few.

The argument has three parts, of which only the last two are about plans.

* **Any cache.**  Every entry was computed for a request with its key.  A use of the cache keeps
  that (`Cache.All.getOrCompute`), because eviction only drops entries, adopting adds one that was
  just computed, and clearing leaves none.  So where keys determine computations each use is
  answered as by a computation of its own (`Cache.Sound.serve`), and by induction so is a run of
  uses, whatever the capacity (`Cache.Sound.answers_eq`).
* **Settings.**  Compilation reads of its settings those that are in the key, and no others
  (`Compiler.compile_congr`).
* **Shapes.**  The key has the fingerprint of the shape's text.  Where digests tell the texts of
  the requests apart the text is determined, and the text determines the shape as far as the
  digits of its floats determine these (`ShapedQuery.eq_of_text`).

What is assumed of digests and digits is `PlanRequest.Distinguished`, for the requests of the run
only.  It cannot be left out: a digest has fewer values than there are texts.  Model and services
are those of one database and the same for all requests.
-/
import DocQuery.PlanKey
import DocQuery.Proofs.ShapeText

namespace DocQuery

namespace Cache

variable {κ α ε ρ : Type}

/-! ## 1. What the entries of a cache have in common -/

/-- Every entry of a cache satisfies `P`. -/
def All (P : κ → α → Prop) (c : Cache κ α) : Prop := ∀ e ∈ c.entries, P e.1 e.2

variable {P : κ → α → Prop} {c : Cache κ α} {key : κ}

theorem all_ofCapacity (capacity : Nat) : All P (ofCapacity capacity : Cache κ α) :=
  fun _ he => absurd he List.not_mem_nil

theorem all_clear (c : Cache κ α) : All P c.clear := fun _ he => absurd he List.not_mem_nil

variable [BEq κ]

/-- Eviction only drops entries. -/
theorem All.adopt (h : All P c) {a : α} (ha : P key a) : All P (c.adopt key a).2 := by
  unfold Cache.adopt
  split
  · exact h
  · intro e he
    rcases List.mem_append.1 (List.mem_of_mem_drop he) with he | he
    · exact h e he
    · rw [List.mem_singleton.1 he]
      exact ha

/-- A request adds at most what it computed. -/
theorem All.getOrCompute (h : All P c) {compute : Except ε α}
    (hcompute : ∀ a, compute = .ok a → P key a) : All P (c.getOrCompute key compute).2 := by
  unfold Cache.getOrCompute Cache.find
  rcases hget : c.get? key with _ | value
  · rcases compute with e | a
    · exact h
    · have missed : All P { c with misses := c.misses + 1 } := h
      exact missed.adopt (hcompute a rfl)
  · exact h

variable [LawfulBEq κ]

theorem All.of_get? (h : All P c) {a : α} (ha : c.get? key = some a) : P key a := by
  obtain ⟨before, after, hsplit, -⟩ := List.lookup_eq_some_iff.1 ha
  refine h (key, a) ?_
  rw [hsplit]
  exact List.mem_append_right _ List.mem_cons_self

theorem All.adopted (h : All P c) {a : α} (ha : P key a) : P key (c.adopt key a).1 := by
  unfold Cache.adopt
  split
  · next existing hex => exact h.of_get? hex
  · exact ha

/-- A request fails only as its computation does, and what it is answered satisfies `P`. -/
theorem All.answer (h : All P c) (key : κ) {compute : Except ε α}
    (hcompute : ∀ a, compute = .ok a → P key a) :
    (∃ a, (c.getOrCompute key compute).1 = .ok a ∧ P key a) ∨
    (∃ e, (c.getOrCompute key compute).1 = .error e ∧ compute = .error e) := by
  unfold Cache.getOrCompute Cache.find
  rcases hget : c.get? key with _ | value
  · rcases compute with e | a
    · exact .inr ⟨e, rfl, rfl⟩
    · have missed : All P { c with misses := c.misses + 1 } := h
      exact .inl ⟨_, rfl, missed.adopted (hcompute a rfl)⟩
  · exact .inl ⟨value, rfl, h.of_get? hget⟩

/-! ## 2. Runs of requests -/

/-- One use of a cache: a request, or the loss of all entries. -/
inductive Use (ρ : Type) where
  | request (r : ρ)
  | clear

/-- What a use is answered by a computation without a cache; clearing answers nothing. -/
def Use.fresh (compute : ρ → Except ε α) : Use ρ → Option (Except ε α)
  | .request r => some (compute r)
  | .clear => none

/-- What a use is answered by a cache, and the cache after it. -/
def serve (key : ρ → κ) (compute : ρ → Except ε α) (c : Cache κ α) :
    Use ρ → Option (Except ε α) × Cache κ α
  | .request r =>
    let served := c.getOrCompute (key r) (compute r)
    (some served.1, served.2)
  | .clear => (none, c.clear)

/-- The answers to uses one after another. -/
def answers (key : ρ → κ) (compute : ρ → Except ε α) (c : Cache κ α) :
    List (Use ρ) → List (Option (Except ε α))
  | [] => []
  | use :: rest =>
    let served := c.serve key compute use
    served.1 :: served.2.answers key compute rest

/-- The values of a cache were computed for requests among those that satisfy `R`. -/
def Sound (key : ρ → κ) (compute : ρ → Except ε α) (R : ρ → Prop) : Cache κ α → Prop :=
  All fun k a => ∃ r, R r ∧ key r = k ∧ compute r = .ok a

variable {keyOf : ρ → κ} {compute : ρ → Except ε α} {R : ρ → Prop}

/-- A use keeps the cache sound and is answered as without it. -/
theorem Sound.serve (h : Sound keyOf compute R c)
    (determined : ∀ r s, R r → R s → keyOf r = keyOf s → compute r = compute s) {use : Use ρ}
    (huse : ∀ r, use = .request r → R r) :
    (c.serve keyOf compute use).1 = use.fresh compute ∧
      Sound keyOf compute R (c.serve keyOf compute use).2 := by
  cases use with
  | clear => exact ⟨rfl, all_clear c⟩
  | request r =>
    have hr := huse r rfl
    have own : ∀ a, compute r = .ok a →
        ∃ s, R s ∧ keyOf s = keyOf r ∧ compute s = .ok a := fun a ha => ⟨r, hr, rfl, ha⟩
    refine ⟨congrArg some ?_, All.getOrCompute h own⟩
    rcases All.answer h (keyOf r) own with ⟨a, ha, s, hs, hkey, hsa⟩ | ⟨e, he, hre⟩
    · rw [ha, ← determined s r hs hr hkey, hsa]
    · rw [he, hre]

/-- **A cache is transparent when keys determine computations.** -/
theorem Sound.answers_eq
    (determined : ∀ r s, R r → R s → keyOf r = keyOf s → compute r = compute s) :
    ∀ {c : Cache κ α} {uses : List (Use ρ)}, Sound keyOf compute R c →
    (∀ r, .request r ∈ uses → R r) → c.answers keyOf compute uses = uses.map (Use.fresh compute)
  | _, [], _, _ => rfl
  | c, use :: rest, h, huses => by
    have huse : ∀ r, use = .request r → R r := fun r hr => huses r (hr ▸ List.mem_cons_self)
    obtain ⟨answered, sound⟩ := h.serve determined huse
    rw [answers, List.map_cons, answered]
    exact congrArg _ (sound.answers_eq determined fun r hr => huses r (List.mem_cons_of_mem _ hr))

/-- The second of two equal requests is a hit. -/
theorem hits_of_repeated (capacity : Nat) {r : ρ} {a : α} (computed : compute r = .ok a) :
    let served := (ofCapacity capacity).serve keyOf compute (.request r)
    (served.2.serve keyOf compute (.request r)).2.hits = 1 := by
  have room : 1 - max capacity 1 = 0 := by omega
  simp [Cache.serve, getOrCompute, find, get?, adopt, evict, ofCapacity, computed, room]

end Cache

/-! ## 3. Settings that compilation reads -/

/-- Compilation depends on the settings of the key alone. -/
theorem Compiler.compile_congr {c d : Compiler} (model : c.model = d.model)
    (services : c.constantFactory = d.constantFactory) (contextType : c.contextType = d.contextType)
    (tracking : c.config.tracking = d.config.tracking)
    (checks : c.config.threadSafetyChecks = d.config.threadSafetyChecks)
    (partition : c.config.partitionKey = d.config.partitionKey)
    (layout : c.config.rowLayout = d.config.rowLayout) : c.compile = d.compile := by
  have identity : c.identity = d.identity := by rw [Compiler.identity, Compiler.identity, tracking]
  have plan : c.plan = d.plan := by
    funext source shaper constants
    simp only [Compiler.plan, Config.standaloneIdentityResolution, contextType, tracking, checks,
      partition]
  funext shaped
  simp only [compile, compileSelect, compileLookup, model, services, layout, identity, plan]

/-- A request for a plan: a shape with the context type and the settings to compile it for. -/
structure PlanRequest where
  shaped : ShapedQuery
  contextType : String
  config : Config

namespace PlanRequest

def key (r : PlanRequest) : PlanKey := .ofShaped r.shaped r.contextType r.config

/-- A compilation of the request's own. -/
def compile (model : Model) (services : ConstantFactory) (r : PlanRequest) :
    Except QueryError Plan :=
  Compiler.compile ⟨model, r.config, r.contextType, services⟩ r.shaped

/-- Requests that are told apart by what their keys hold: the digests of their texts differ where
the texts do, and their finite floats differ in their digits. -/
structure Distinguished (R : PlanRequest → Prop) : Prop where
  digests : ∀ r s, R r → R s →
    Fingerprint.ofJson r.shaped.encode = Fingerprint.ofJson s.shaped.encode →
    r.shaped.encode.text = s.shaped.encode.text
  singles : ∀ r s m n, R r → R s → .float32 (.finite m) ∈ r.shaped.constants →
    .float32 (.finite n) ∈ s.shaped.constants →
    (Number.single m).write = (Number.single n).write → m = n
  doubles : ∀ r s m n, R r → R s → .float64 (.finite m) ∈ r.shaped.constants →
    .float64 (.finite n) ∈ s.shaped.constants →
    (Number.double m).write = (Number.double n).write → m = n

/-- Requests with one key are requests for one plan. -/
theorem Distinguished.compile_eq {R : PlanRequest → Prop} (h : Distinguished R) (model : Model)
    (services : ConstantFactory) {r s : PlanRequest} (hr : R r) (hs : R s) (hkey : r.key = s.key) :
    r.compile model services = s.compile model services := by
  simp only [key, PlanKey.ofShaped, PlanKey.mk.injEq] at hkey
  obtain ⟨hshape, hcontext, htracking, hchecks, hpartition, hlayout⟩ := hkey
  have legible : Legible r.shaped.constants s.shaped.constants := by
    intro a ha b hb
    refine Scalar.eq_of_alike (fun m n hm hn => ?_) (fun m n hm hn => ?_)
    · exact h.singles r s m n hr hs (hm ▸ ha) (hn ▸ hb)
    · exact h.doubles r s m n hr hs (hm ▸ ha) (hn ▸ hb)
  have shaped : r.shaped = s.shaped :=
    ShapedQuery.eq_of_text legible (h.digests r s hr hs hshape)
  have compiled :
      Compiler.compile ⟨model, r.config, r.contextType, services⟩ =
        Compiler.compile ⟨model, s.config, s.contextType, services⟩ :=
    Compiler.compile_congr rfl rfl hcontext htracking hchecks hpartition hlayout
  rw [compile, compile, compiled, shaped]

/-- **The plan cache is transparent.**  Whatever its capacity, requests are answered as if each was
compiled anew, also when shapes, context types and settings change from one to the next and the
cache is cleared between them.  A request that fails to compile is answered with its error each
time.  Of the requests of the run it is assumed that digests tell their texts apart, and digits
their floats. -/
theorem answers_eq_fresh (model : Model) (services : ConstantFactory) (capacity : Nat)
    (uses : List (Cache.Use PlanRequest)) (h : Distinguished fun r => .request r ∈ uses) :
    (Cache.ofCapacity capacity).answers key (compile model services) uses =
      uses.map (Cache.Use.fresh (compile model services)) := by
  have sound : Cache.Sound key (compile model services) (fun r => .request r ∈ uses)
      (Cache.ofCapacity capacity) := Cache.all_ofCapacity capacity
  refine sound.answers_eq ?_ ?_
  · intro r s hr hs hkey
    exact h.compile_eq model services hr hs hkey
  · intro r hr
    exact hr

end PlanRequest

def item : EntityType where
  name := "Item"
  container := "items"
  properties := [⟨"Id", .int32, false, "id", none⟩]
  key := ["Id"]
  partitionKey := none
  embedded := []

/-- A zero for every item, with a sign. -/
def zeroPerItem (negative : Bool) : ShapedQuery where
  query := .select (.ofEntity item)
  shaper := .constant (.float64 (.finite ⟨negative, 0⟩))

theorem digests_zeroPerItem : Fingerprint.ofJson (zeroPerItem false).encode ≠
    Fingerprint.ofJson (zeroPerItem true).encode := by
  decide +kernel

namespace PlanRequest

/-- One zero is asked for twice, and the other after it; then that one in another context and
another layout, with the cache cleared between them. -/
def zeroUses : List (Cache.Use PlanRequest) :=
  [.request ⟨zeroPerItem false, "A", .default⟩, .request ⟨zeroPerItem false, "A", .default⟩,
    .request ⟨zeroPerItem true, "A", .default⟩, .clear,
    .request ⟨zeroPerItem true, "B", .default⟩,
    .request ⟨zeroPerItem true, "B", { Config.default with rowLayout := .ordinal }⟩]

/-- The zeros differ in their sign, so in their digits, and in the digests of their queries. -/
theorem distinguished_zeroUses : Distinguished fun r => .request r ∈ zeroUses := by
  have shaped : ∀ r, .request r ∈ zeroUses → ∃ negative, r.shaped = zeroPerItem negative := by
    intro r hr
    simp only [zeroUses, List.mem_cons, Cache.Use.request.injEq, reduceCtorEq, List.not_mem_nil,
      false_or, or_false] at hr
    rcases hr with rfl | rfl | rfl | rfl | rfl <;> exact ⟨_, rfl⟩
  refine ⟨?_, ?_, ?_⟩
  · intro r s hr hs one
    obtain ⟨m, hm⟩ := shaped r hr
    obtain ⟨n, hn⟩ := shaped s hs
    rw [hm, hn] at one ⊢
    cases m <;> cases n
    · rfl
    · exact absurd one digests_zeroPerItem
    · exact absurd one.symm digests_zeroPerItem
    · rfl
  · intro r s m n hr _ hm _ _
    obtain ⟨negative, shape⟩ := shaped r hr
    rw [shape] at hm
    cases List.mem_singleton.1 hm
  · intro r s m n hr hs hm hn digits
    obtain ⟨negative, shape⟩ := shaped r hr
    obtain ⟨negative', shape'⟩ := shaped s hs
    rw [shape] at hm
    rw [shape'] at hn
    cases List.mem_singleton.1 hm
    cases List.mem_singleton.1 hn
    cases negative <;> cases negative'
    · rfl
    · exact absurd digits (by decide +kernel)
    · exact absurd digits (by decide +kernel)
    · rfl

/-- There is room for one plan only.  The second request finds the plan of the first. -/
theorem answers_eq_fresh_zeroPerItem :
    (Cache.ofCapacity 1).answers key (compile (.ofList [item]) id) zeroUses =
      zeroUses.map (Cache.Use.fresh (compile (.ofList [item]) id)) ∧
    ∃ first second : Cache.Use PlanRequest, zeroUses.take 2 = [first, second] ∧
      let served := (Cache.ofCapacity 1).serve key (compile (.ofList [item]) id) first
      (served.2.serve key (compile (.ofList [item]) id) second).2.hits = 1 := by
  obtain ⟨plan, compiled⟩ :
      ∃ plan, compile (.ofList [item]) id ⟨zeroPerItem false, "A", .default⟩ = .ok plan := ⟨_, rfl⟩
  exact ⟨answers_eq_fresh (.ofList [item]) id 1 _ distinguished_zeroUses, _, _, rfl,
    Cache.hits_of_repeated 1 compiled⟩

end PlanRequest

end DocQuery
