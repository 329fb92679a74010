/-
# What shaping gives

The results of shaping are taken apart along the shaper, whatever the state in which it starts
(`Shaping.Yields`): an entity is null or has the values of its properties and the results of its
navigations, a collection has a result for each element of its array.  With an identity there is a
third case, the entity that was recorded for the key (`RowShaper.shapeEntity_cases`).

Without identities it does not depend on the state whether shaping succeeds, and the conditions of
its steps add up.  That is `Shaping.SucceedsIff`, with one rule for each way in which steps are
put together; the second of two steps matters only for results of the first.
-/
import DocQuery.Proofs.IdentityShaping

namespace DocQuery

/-! ## 1. Results of steps -/

namespace Shaping

variable {α β : Type} {x : Shaping α} {f : α → Shaping β} {a : α} {b : β}

/-- A step has this result in some state. -/
def Yields (x : Shaping α) (a : α) : Prop := ∃ s, (x.run s).1 = .ok a

theorem eq_of_yields_pure {c : α} (h : Yields (pure a) c) : a = c := by
  obtain ⟨s, h⟩ := h
  exact Except.ok.inj h

theorem not_yields_fail (fault : MaterializeFault) (a : α) : ¬ Yields (fail fault) a := by
  rintro ⟨s, h⟩
  cases h

theorem yields_ofExcept {x : Except RunError α} (h : Yields (ofExcept x) a) : x = .ok a := by
  obtain ⟨s, h⟩ := h
  rwa [run_ofExcept] at h

theorem exists_of_yields_bind (h : Yields (x >>= f) b) : ∃ a, Yields x a ∧ Yields (f a) b := by
  obtain ⟨s, h⟩ := h
  obtain ⟨a, s', hx, hf⟩ := exists_of_run_bind h
  exact ⟨a, ⟨s, congrArg Prod.fst hx⟩, s', hf⟩

theorem forall₂_of_yields_mapM {f : α → Shaping β} : ∀ {as : List α} {bs : List β},
    Yields (as.mapM f) bs → List.Forall₂ (fun a b => Yields (f a) b) as bs
  | [], _, h => by
    cases eq_of_yields_pure h
    exact .nil
  | a :: as, _, h => by
    rw [List.mapM_cons] at h
    obtain ⟨b, hb, h⟩ := exists_of_yields_bind h
    obtain ⟨bs, hbs, h⟩ := exists_of_yields_bind h
    cases eq_of_yields_pure h
    exact .cons hb (forall₂_of_yields_mapM hbs)

/-! ## 2. Success -/

/-- A step that succeeds under a condition, in every state. -/
def SucceedsIff (P : Prop) (x : Shaping α) : Prop := ∀ s, (∃ a, (x.run s).1 = .ok a) ↔ P

namespace SucceedsIff

variable {P Q : Prop}

theorem congr (h : SucceedsIff P x) (same : P ↔ Q) : SucceedsIff Q x := fun s => (h s).trans same

theorem pure (a : α) : SucceedsIff True (Pure.pure a : Shaping α) :=
  fun _ => iff_of_true ⟨a, rfl⟩ trivial

theorem fail (fault : MaterializeFault) : SucceedsIff False (Shaping.fail fault : Shaping α) :=
  fun _ => iff_of_false (fun ⟨_, h⟩ => nomatch h) id

theorem freshId : SucceedsIff True Shaping.freshId := fun s => iff_of_true ⟨s.nextId, rfl⟩ trivial

theorem ofExcept (x : Except RunError α) : SucceedsIff (∃ a, x = .ok a) (Shaping.ofExcept x) :=
  fun s => by rw [run_ofExcept]

/-- The second step matters only for results of the first. -/
theorem bind (hx : SucceedsIff P x) (hf : ∀ a, Yields x a → SucceedsIff Q (f a)) :
    SucceedsIff (P ∧ Q) (x >>= f) := by
  intro s
  have first := hx s
  rw [run_bind]
  rcases hrun : x.run s with ⟨e | a, s'⟩
  · rw [hrun] at first
    exact iff_of_false (fun ⟨_, h⟩ => nomatch h) fun h => nomatch first.2 h.1
  · rw [hrun] at first
    have second := hf a ⟨s, congrArg Prod.fst hrun⟩ s'
    exact second.trans ⟨fun h => ⟨first.1 ⟨a, rfl⟩, h⟩, And.right⟩

/-- A step after which nothing can go wrong. -/
theorem andThen (hx : SucceedsIff P x) (hf : ∀ a, SucceedsIff True (f a)) :
    SucceedsIff P (x >>= f) := (hx.bind fun a _ => hf a).congr (and_iff_left trivial)

theorem mapM {P : α → Prop} {f : α → Shaping β} : ∀ {as : List α},
    (∀ a ∈ as, SucceedsIff (P a) (f a)) → SucceedsIff (∀ a ∈ as, P a) (as.mapM f)
  | [], _ => (pure []).congr (iff_of_true trivial nofun)
  | a :: as, h => by
    rw [List.mapM_cons]
    refine ((h a List.mem_cons_self).bind fun b _ => ?_).congr List.forall_mem_cons.symm
    exact (mapM fun x hx => h x (List.mem_cons_of_mem _ hx)).andThen fun bs => pure _

end SucceedsIff

/-- A new entity is recorded as it is. -/
theorem run_recordEntity_of_absent {mode : IdentityMode} {entityType : String} {key : List Scalar}
    {s : ShapingState} (absent : (s.map mode).find? entityType key = none) (item : Item) :
    ((recordEntity mode entityType key item).run s).1 = .ok item := by
  cases mode with
  | none => rfl
  | tracked =>
    have step : ((recordEntity .tracked entityType key item).run s).1 =
        .ok (s.tracked.track entityType key item).1 := rfl
    have absent : s.tracked.find? entityType key = none := absent
    rw [step, IdentityMap.track, absent]
  | perQuery =>
    rcases s with ⟨tracked, _ | map, nextId⟩
    · rfl
    · have step : ((recordEntity .perQuery entityType key item).run ⟨tracked, some map, nextId⟩).1 =
          .ok (map.track entityType key item).1 := rfl
      have absent : map.find? entityType key = none := absent
      rw [step, IdentityMap.track, absent]

end Shaping

/-! ## 3. Results of shaping -/

namespace RowShaper

open Shaping (Yields)

variable {info : EntityRead} {fields : List (String × RowShaper)} {node : Json} {item : Item}

/-- The results of fields come one after the other, each under the name of its field. -/
theorem yields_shapeFields_cons {ordinals : Option (List Json)} {name : String} {s : RowShaper}
    {items : List (String × Item)} (h : Yields (shapeFields ordinals node ((name, s) :: fields)) items) :
    ∃ first others, items = (name, first) :: others ∧ Yields (s.shapeNode ordinals node) first ∧
      Yields (shapeFields ordinals node fields) others := by
  rw [shapeFields] at h
  obtain ⟨first, hfirst, h⟩ := Shaping.exists_of_yields_bind h
  obtain ⟨others, hothers, h⟩ := Shaping.exists_of_yields_bind h
  exact ⟨first, others, (Shaping.eq_of_yields_pure h).symm, hfirst, hothers⟩

theorem yields_shapeFields_nil {ordinals : Option (List Json)} {items : List (String × Item)}
    (h : Yields (shapeFields ordinals node []) items) : items = [] := by
  rw [shapeFields] at h
  exact (Shaping.eq_of_yields_pure h).symm

/-- A new entity has the values of its properties and the results of its navigations. -/
theorem yields_makeEntity (h : Yields (makeEntity info node fields) item) :
    ∃ id values items, info.readProperties node = .ok values ∧
      Yields (shapeFields none node fields) items ∧
      item = .entity id info.entityType values
        (items.foldl (fun sorted f => insertAscending f.1 f.2 sorted) []) := by
  rw [makeEntity] at h
  obtain ⟨values, hvalues, h⟩ := Shaping.exists_of_yields_bind h
  obtain ⟨items, hitems, h⟩ := Shaping.exists_of_yields_bind h
  obtain ⟨id, -, h⟩ := Shaping.exists_of_yields_bind h
  exact ⟨id, values, items, Shaping.yields_ofExcept hvalues, hitems, (Shaping.eq_of_yields_pure h).symm⟩

/-- An entity is null, or the one recorded for its key, or new. -/
theorem shapeEntity_cases (plain : FieldsPlain fields) {s : ShapingState}
    (h : ((shapeEntity info node fields).run s).1 = .ok item) :
    (node.isNull = true ∧ item = .null) ∨ node.isNull = false ∧
      ((∃ key, info.key.mapM (info.readProperty node) = .ok key ∧
        (s.map info.identity).find? info.entityType key = some item) ∨
      Yields (makeEntity info node fields) item) := by
  rw [shapeEntity] at h
  split at h
  · next null =>
    refine .inl ⟨null, ?_⟩
    split at h
    · exact (Except.ok.inj h).symm
    · cases h
  · next full =>
    refine .inr ⟨Bool.not_eq_true _ ▸ full, ?_⟩
    split at h
    · exact .inr ⟨s, h⟩
    · obtain ⟨key, s₁, hread, h⟩ := Shaping.exists_of_run_bind h
      rw [Shaping.run_ofExcept] at hread
      obtain ⟨hkey, rfl⟩ := Prod.mk.inj hread
      obtain ⟨found, s₂, hfind, h⟩ := Shaping.exists_of_run_bind h
      rw [Shaping.run_findEntity] at hfind
      obtain ⟨hfound, rfl⟩ := Prod.mk.inj hfind
      have lookup := Except.ok.inj hfound
      split at h
      · next existing =>
        cases h
        exact .inl ⟨key, hkey, lookup⟩
      · obtain ⟨made, s₃, hmade, h⟩ := Shaping.exists_of_run_bind h
        obtain ⟨next, -, state, -⟩ := run_makeEntity info plain node s
        rw [hmade] at state
        -- making an entity leaves the maps alone, so its key is still free
        have absent : (s₃.map info.identity).find? info.entityType key = none := by
          rw [show s₃ = { s with nextId := next } from state]
          exact lookup
        rw [Shaping.run_recordEntity_of_absent absent] at h
        cases h
        exact .inr ⟨s, congrArg Prod.fst hmade⟩

/-- An entity without an identity is null, where it may be, or new. -/
theorem yields_entity (identity : info.identity = .none)
    (h : Yields ((entity info fields).shapeNode none node) item) :
    ((node.readPath info.path).isNull = true ∧ info.nullable = true ∧ item = .null) ∨
      (node.readPath info.path).isNull = false ∧
        Yields (makeEntity info (node.readPath info.path) fields) item := by
  rw [shapeNode, if_neg (by exact Bool.false_ne_true), shapeEntity, if_pos identity] at h
  split at h
  · next null =>
    split at h
    · next nullable => exact .inl ⟨null, nullable, (Shaping.eq_of_yields_pure h).symm⟩
    · exact (Shaping.not_yields_fail _ _ h).elim
  · next full =>
    exact .inr ⟨Bool.not_eq_true _ ▸ full, h⟩

/-- A collection is empty or has a result for each element of its array. -/
theorem yields_collection {path : List String} {element : RowShaper}
    (h : Yields ((collection path element).shapeNode none node) item) :
    (node.readPath path = .null ∧ item = .list []) ∨ ∃ elements items,
      node.readPath path = .array elements ∧ item = .list items ∧
      List.Forall₂ (fun e i => Yields (element.shapeNode none e) i) elements items := by
  rw [shapeNode] at h
  split at h
  · next null => exact .inl ⟨null, (Shaping.eq_of_yields_pure h).symm⟩
  · next elements array =>
    obtain ⟨items, hitems, h⟩ := Shaping.exists_of_yields_bind h
    exact .inr ⟨elements, items, array, (Shaping.eq_of_yields_pure h).symm,
      Shaping.forall₂_of_yields_mapM hitems⟩
  · exact (Shaping.not_yields_fail _ _ h).elim

end RowShaper

end DocQuery
