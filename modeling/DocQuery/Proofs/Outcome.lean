/-
# Steps that may fail

How a sequence of steps succeeds and fails, for steps without a state (`Except`) and for those of
shaping, which keep their state when they fail.

Programs of this kind are taken apart in two directions, and there is one vocabulary for each.

* **From a result backwards.**  A sequence that succeeded did so step by step: `bind_eq_ok`,
  `pure_eq_ok`, `unless_eq_ok` and their like give the results in between, and `mapM` over a list
  is related to `map` by every function that gives the results of its steps (`eq_map_of_mapM`).
* **From the code forwards.**  What can go wrong is collected along the way: `FailsOnly P` says
  that a step fails only with errors of which `P` holds, and it is closed under everything that
  steps are put together with.  A later step matters only for results of the earlier one
  (`FailsOnly.bind`).

Steps of shaping have the same two, with the state in which they start as a parameter
(`Shaping.run_bind`, `Shaping.FailsOnly`).
-/
import DocQuery.Materialize
import Mathlib.Data.List.Forall2

namespace DocQuery

variable {α β ε : Type}

/-! ## 1. Success -/

theorem bind_eq_ok {x : Except ε α} {f : α → Except ε β} {b : β} :
    x >>= f = .ok b ↔ ∃ a, x = .ok a ∧ f a = .ok b := by
  constructor
  · intro h
    cases x with
    | error e => cases h
    | ok a => exact ⟨a, rfl, h⟩
  · rintro ⟨a, rfl, hf⟩
    exact hf

/-- Steps that go on alike from every result of the first. -/
theorem bind_congr_ok {x : Except ε α} {f g : α → Except ε β} (h : ∀ a, x = .ok a → f a = g a) :
    x >>= f = x >>= g := by
  cases x with
  | error e => rfl
  | ok a => exact h a rfl

theorem map_eq_ok {x : Except ε α} {f : α → β} {b : β} :
    x.map f = .ok b ↔ ∃ a, x = .ok a ∧ f a = b := by
  constructor
  · intro h
    cases x with
    | error e => cases h
    | ok a => exact ⟨a, rfl, Except.ok.inj h⟩
  · rintro ⟨a, rfl, rfl⟩
    rfl

theorem exists_bind_iff {x : Except ε α} {f : α → Except ε β} :
    (∃ b, x >>= f = .ok b) ↔ ∃ a, x = .ok a ∧ ∃ b, f a = .ok b := by
  simp only [bind_eq_ok]
  exact ⟨fun ⟨b, a, ha, hb⟩ => ⟨a, ha, b, hb⟩, fun ⟨a, ha, b, hb⟩ => ⟨b, a, ha, hb⟩⟩

theorem exists_map_iff {x : Except ε α} {f : α → β} :
    (∃ b, x.map f = .ok b) ↔ ∃ a, x = .ok a := by
  simp only [map_eq_ok]
  exact ⟨fun ⟨_, a, ha, _⟩ => ⟨a, ha⟩, fun ⟨a, ha⟩ => ⟨_, a, ha, rfl⟩⟩

theorem pure_eq_ok {a b : α} : (pure a : Except ε α) = .ok b ↔ a = b :=
  ⟨Except.ok.inj, congrArg _⟩

theorem ok_of_toOption {x : Except ε α} {a : α} (h : x.toOption = some a) : x = .ok a := by
  cases x with
  | ok b => exact congrArg _ (Option.some.inj h)
  | error e => cases h

/-- What follows a check is reached when the check does not fail. -/
theorem unless_eq_ok {c : Prop} [Decidable c] {e : ε} {f : α → Except ε β} {x : Except ε β}
    {b : β} :
    (if c then Except.error e >>= f else x) = .ok b ↔ ¬ c ∧ x = .ok b := by
  by_cases hc : c
  · rw [if_pos hc]
    exact ⟨fun h => (nomatch h), fun h => absurd hc h.1⟩
  · rw [if_neg hc]
    exact (and_iff_right hc).symm

theorem mapM_cons_eq_ok {f : α → Except ε β} {a : α} {as : List α} {bs : List β} :
    (a :: as).mapM f = .ok bs ↔
      ∃ b bs', f a = .ok b ∧ as.mapM f = .ok bs' ∧ bs = b :: bs' := by
  simp only [List.mapM_cons, bind_eq_ok, pure_eq_ok]
  constructor
  · rintro ⟨b, hb, bs', hbs, rfl⟩
    exact ⟨b, bs', hb, hbs, rfl⟩
  · rintro ⟨b, bs', hb, hbs, rfl⟩
    exact ⟨b, hb, bs', hbs, rfl⟩

theorem mapM_nil_eq_ok {f : α → Except ε β} {bs : List β} : [].mapM f = .ok bs ↔ bs = [] :=
  pure_eq_ok.trans eq_comm

/-- Lists that agree place by place have one image. -/
theorem map_eq_map_of_forall₂ {γ : Type} {f : α → γ} {g : β → γ} {as : List α} {bs : List β}
    (h : List.Forall₂ (fun a b => f a = g b) as bs) : as.map f = bs.map g := by
  rw [← List.forall₂_eq_eq_eq, List.forall₂_map_left_iff, List.forall₂_map_right_iff]
  exact h

/-- What is known of each result is known of the list of them. -/
theorem map_of_mapM {γ : Type} {f : α → Except ε β} {g : β → γ} {k : α → γ} :
    ∀ {as : List α} {bs : List β}, (∀ a ∈ as, ∀ b, f a = .ok b → g b = k a) →
    as.mapM f = .ok bs → bs.map g = as.map k
  | [], _, _, h => by
    rw [mapM_nil_eq_ok.1 h]
    rfl
  | a :: as, _, hfg, h => by
    obtain ⟨b, bs', hb, hbs, rfl⟩ := mapM_cons_eq_ok.1 h
    rw [List.map_cons, List.map_cons, hfg a List.mem_cons_self b hb,
      map_of_mapM (fun x hx => hfg x (List.mem_cons_of_mem _ hx)) hbs]

/-- A step over a list is a map by every function that gives the results of the step. -/
theorem eq_map_of_mapM {f : α → Except ε β} {g : α → β} {as : List α} {bs : List β}
    (h : ∀ a ∈ as, ∀ b, f a = .ok b → b = g a) (hbs : as.mapM f = .ok bs) : bs = as.map g := by
  rw [← map_of_mapM (g := id) h hbs, List.map_id]

theorem length_of_mapM {f : α → Except ε β} {as : List α} {bs : List β}
    (h : as.mapM f = .ok bs) : bs.length = as.length := by
  have := map_of_mapM (g := fun _ => ()) (k := fun _ => ()) (fun _ _ _ _ => rfl) h
  simpa using congrArg List.length this

/-- A step over a list can be followed by a step over its image. -/
theorem mapM_map_of_mapM {α' β' : Type} {f : α → Except ε β} {f' : α' → Except ε β'} {g : α → α'}
    {k : β → β'} : ∀ {as : List α} {bs : List β},
    (∀ a ∈ as, ∀ b, f a = .ok b → f' (g a) = .ok (k b)) → as.mapM f = .ok bs →
    (as.map g).mapM f' = .ok (bs.map k)
  | [], _, _, h => by
    rw [mapM_nil_eq_ok.1 h]
    rfl
  | a :: as, _, hstep, h => by
    obtain ⟨b, bs', hb, hbs, rfl⟩ := mapM_cons_eq_ok.1 h
    exact mapM_cons_eq_ok.2 ⟨k b, bs'.map k, hstep a List.mem_cons_self b hb,
      mapM_map_of_mapM (fun x hx => hstep x (List.mem_cons_of_mem _ hx)) hbs, rfl⟩

/-- Two steps over a list, one after the other, are a step that makes both. -/
theorem mapM_of_mapM_mapM {ε' γ : Type} {f : α → Except ε β} {g : β → Except ε' γ}
    {h : α → Except ε' γ} : ∀ {as : List α} {bs : List β} {cs : List γ},
    (∀ a ∈ as, ∀ b c, f a = .ok b → g b = .ok c → h a = .ok c) →
    as.mapM f = .ok bs → bs.mapM g = .ok cs → as.mapM h = .ok cs
  | [], _, _, _, hf, hg => by
    rw [mapM_nil_eq_ok.1 hf] at hg
    rw [mapM_nil_eq_ok.1 hg]
    rfl
  | a :: as, _, _, both, hf, hg => by
    obtain ⟨b, bs, hb, hbs, rfl⟩ := mapM_cons_eq_ok.1 hf
    obtain ⟨c, cs, hc, hcs, rfl⟩ := mapM_cons_eq_ok.1 hg
    exact mapM_cons_eq_ok.2 ⟨c, cs, both a List.mem_cons_self b c hb hc,
      mapM_of_mapM_mapM (fun x hx => both x (List.mem_cons_of_mem _ hx)) hbs hcs, rfl⟩

/-- A step over an image that is the step over the list with its results mapped. -/
theorem mapM_map {α' β' : Type} {f : α → Except ε β} {f' : α' → Except ε β'} {g : α → α'}
    {k : β → β'} : ∀ {as : List α}, (∀ a ∈ as, f' (g a) = (f a).map k) →
    (as.map g).mapM f' = (as.mapM f).map (List.map k)
  | [], _ => rfl
  | a :: as, h => by
    rw [List.map_cons, List.mapM_cons, List.mapM_cons, h a List.mem_cons_self,
      mapM_map fun x hx => h x (List.mem_cons_of_mem _ hx)]
    cases f a with
    | error e => rfl
    | ok b => cases as.mapM f <;> rfl

theorem exists_mapM {f : α → Except ε β} : ∀ {as : List α}, (∀ a ∈ as, ∃ b, f a = .ok b) →
    ∃ bs, as.mapM f = .ok bs
  | [], _ => ⟨[], rfl⟩
  | a :: as, h => by
    obtain ⟨b, hb⟩ := h a List.mem_cons_self
    obtain ⟨bs, hbs⟩ := exists_mapM fun x hx => h x (List.mem_cons_of_mem _ hx)
    exact ⟨b :: bs, mapM_cons_eq_ok.2 ⟨b, bs, hb, hbs, rfl⟩⟩

theorem mapM_eq_ok_map {f : α → Except ε β} {g : α → β} : ∀ {as : List α},
    (∀ a ∈ as, f a = .ok (g a)) → as.mapM f = .ok (as.map g)
  | [], _ => rfl
  | a :: as, h => mapM_cons_eq_ok.2 ⟨g a, as.map g, h a List.mem_cons_self,
      mapM_eq_ok_map fun x hx => h x (List.mem_cons_of_mem _ hx), rfl⟩

theorem mapM_eq_ok_of_mem {f : α → Except ε β} : ∀ {as : List α} {bs : List β},
    as.mapM f = .ok bs → ∀ a ∈ as, ∃ b ∈ bs, f a = .ok b
  | [], _, _, _, ha => absurd ha List.not_mem_nil
  | a :: as, _, h, x, hx => by
    obtain ⟨b, bs', hb, hbs, rfl⟩ := mapM_cons_eq_ok.1 h
    rcases List.mem_cons.1 hx with rfl | hx
    · exact ⟨b, List.mem_cons_self, hb⟩
    · obtain ⟨c, hc, hfx⟩ := mapM_eq_ok_of_mem hbs x hx
      exact ⟨c, List.mem_cons_of_mem _ hc, hfx⟩

/-- A step over a list succeeds when it does for each element. -/
theorem exists_mapM_iff {f : α → Except ε β} {as : List α} :
    (∃ bs, as.mapM f = .ok bs) ↔ ∀ a ∈ as, ∃ b, f a = .ok b := by
  refine ⟨fun ⟨bs, h⟩ a member => ?_, exists_mapM⟩
  obtain ⟨b, -, hb⟩ := mapM_eq_ok_of_mem h a member
  exact ⟨b, hb⟩

theorem mem_of_mapM_eq_ok {f : α → Except ε β} : ∀ {as : List α} {bs : List β},
    as.mapM f = .ok bs → ∀ b ∈ bs, ∃ a ∈ as, f a = .ok b
  | [], _, h, _, hb => by
    rw [mapM_nil_eq_ok.1 h] at hb
    exact absurd hb List.not_mem_nil
  | a :: as, _, h, x, hx => by
    obtain ⟨b, bs', hb, hbs, rfl⟩ := mapM_cons_eq_ok.1 h
    rcases List.mem_cons.1 hx with rfl | hx
    · exact ⟨a, List.mem_cons_self, hb⟩
    · obtain ⟨c, hc, hfc⟩ := mem_of_mapM_eq_ok hbs x hx
      exact ⟨c, List.mem_cons_of_mem _ hc, hfc⟩

theorem RunError.lift_eq_ok {x : Except QueryError α} {a : α} :
    RunError.lift x = .ok a ↔ x = .ok a := by
  cases x <;> simp [RunError.lift]

theorem RunError.ofSort_eq_ok {o : Option α} {a : α} : RunError.ofSort o = .ok a ↔ o = some a := by
  cases o <;> simp [RunError.ofSort]

/-! ## 2. Failure -/

/-- A step that fails only with errors of which `P` holds. -/
def FailsOnly (P : ε → Prop) (x : Except ε α) : Prop := ∀ e, x = .error e → P e

namespace FailsOnly

variable {P Q : ε → Prop} {x : Except ε α}

theorem ok (a : α) : FailsOnly P (.ok a : Except ε α) := fun _ h => nomatch h

theorem error {e : ε} (h : P e) : FailsOnly P (.error e : Except ε α) :=
  fun _ he => Except.error.inj he ▸ h

theorem mono (h : FailsOnly P x) (hPQ : ∀ e, P e → Q e) : FailsOnly Q x :=
  fun e he => hPQ e (h e he)

/-- The second step matters only for results of the first. -/
theorem bind {f : α → Except ε β} (hx : FailsOnly P x) (hf : ∀ a, x = .ok a → FailsOnly P (f a)) :
    FailsOnly P (x >>= f) := by
  intro e h
  cases x with
  | error e' =>
    cases h
    exact hx e rfl
  | ok a => exact hf a rfl e h

theorem map {f : α → β} (hx : FailsOnly P x) : FailsOnly P (x.map f) := by
  intro e h
  cases x with
  | error e' =>
    cases h
    exact hx e rfl
  | ok a => cases h

theorem mapM {f : α → Except ε β} : ∀ {as : List α}, (∀ a ∈ as, FailsOnly P (f a)) →
    FailsOnly P (as.mapM f)
  | [], _ => .ok []
  | a :: as, h => by
    rw [List.mapM_cons]
    refine (h a List.mem_cons_self).bind fun b _ => ?_
    exact (mapM fun x hx => h x (List.mem_cons_of_mem _ hx)).bind fun bs _ => .ok _

theorem ite {c : Prop} [Decidable c] {y : Except ε α} (hx : c → FailsOnly P x)
    (hy : ¬ c → FailsOnly P y) : FailsOnly P (if c then x else y) := by
  split
  · next h => exact hx h
  · next h => exact hy h

theorem lift {P : RunError → Prop} {x : Except QueryError α}
    (h : FailsOnly (fun e => P (.query e)) x) : FailsOnly P (RunError.lift x) := by
  cases x with
  | ok a => exact .ok a
  | error e => exact .error (h e rfl)

theorem ofSort {P : RunError → Prop} (h : P .unordered) (o : Option α) :
    FailsOnly P (RunError.ofSort o) := by
  cases o with
  | none => exact .error h
  | some sorted => exact .ok sorted

end FailsOnly

/-! ## 3. Failure of shaping -/

namespace Shaping

variable {P : RunError → Prop}

/-- A later step starts from the state that the one before it has left, and is not taken after a
failure. -/
theorem run_bind (m : Shaping α) (f : α → Shaping β) (s : ShapingState) :
    (m >>= f).run s = match m.run s with
      | (.ok a, s') => (f a).run s'
      | (.error e, s') => (.error e, s') := by
  simp only [bind, ExceptT.bind, ExceptT.bindCont, ExceptT.run, ExceptT.mk, StateT.bind]
  rcases m s with ⟨e | a, s'⟩
  · rfl
  · rfl

/-- A step of shaping that fails only with errors of which `P` holds, whatever its state. -/
def FailsOnly (P : RunError → Prop) (m : Shaping α) : Prop := ∀ s, DocQuery.FailsOnly P (m.run s).1

namespace FailsOnly

theorem pure (a : α) : FailsOnly P (Pure.pure a : Shaping α) := fun _ => .ok a

theorem fail {fault : MaterializeFault} (h : P (.materialize fault)) :
    FailsOnly P (Shaping.fail fault : Shaping α) := fun _ => .error h

theorem ofExcept {x : Except RunError α} (h : DocQuery.FailsOnly P x) :
    FailsOnly P (Shaping.ofExcept x) := by
  cases x with
  | ok a => exact pure a
  | error e => exact fun _ => .error (h e rfl)

theorem bind {m : Shaping α} {f : α → Shaping β} (hm : FailsOnly P m)
    (hf : ∀ a, FailsOnly P (f a)) : FailsOnly P (m >>= f) := by
  intro s
  have hs := hm s
  rw [run_bind]
  rcases hrun : m.run s with ⟨e | a, s'⟩
  · rw [hrun] at hs
    intro e' h
    cases h
    exact hs e rfl
  · exact hf a s'

theorem mapM {f : α → Shaping β} : ∀ {as : List α}, (∀ a ∈ as, FailsOnly P (f a)) →
    FailsOnly P (as.mapM f)
  | [], _ => pure []
  | a :: as, h => by
    rw [List.mapM_cons]
    refine (h a List.mem_cons_self).bind fun b => ?_
    exact (mapM fun x hx => h x (List.mem_cons_of_mem _ hx)).bind fun bs => pure _

end FailsOnly

end Shaping

end DocQuery
