/-
# What shaping is made of

Shaping a row is a sequence of few kinds of steps: it reads values, makes entities under new
numbers, and looks up and records the entities that its shaper has.  Whatever is to be shown of
shaping as a whole is shown of these kinds first.

`StepClass` is a class of steps that has them all and is closed under taking one step after
another; such a class has all of shaping (`RowShaper.mem_shapeRow`).  The mutual recursion over
shapers, entities and fields is gone through once, here, and every later property that steps
inherit is an instance: which errors there are, which numbers are given out, which map is left
alone.

A class may be asked to have the recording of entities under some modes only.  Which entities a
shaper has, and which of them are owned by others, is `RowShaper.Occurs`.
-/
import DocQuery.Proofs.ShaperFit

namespace DocQuery

/-! ## 1. The entities of a shaper -/

namespace RowShaper

/-- An entity of a shaper, which is owned when it lies in the navigations of another one. -/
inductive Occurs (r : EntityRead) : Bool → RowShaper → Prop where
  | here (embedded : List (String × RowShaper)) : Occurs r false (.entity r embedded)
  | embedded {owned : Bool} {info : EntityRead} {embedded : List (String × RowShaper)}
      {name : String} {s : RowShaper} (mem : (name, s) ∈ embedded) (inner : Occurs r owned s) :
      Occurs r true (.entity info embedded)
  | element {owned : Bool} {path : List String} {element : RowShaper}
      (inner : Occurs r owned element) : Occurs r owned (.collection path element)
  | field {owned : Bool} {fields : List (String × RowShaper)} {name : String} {s : RowShaper}
      (mem : (name, s) ∈ fields) (inner : Occurs r owned s) : Occurs r owned (.record fields)

end RowShaper

/-! ## 2. Reading values -/

/-- An error that a row gives to its shaper. -/
def IsMaterializeError (e : RunError) : Prop := ∃ fault, e = .materialize fault

theorem isMaterializeError (fault : MaterializeFault) : IsMaterializeError (.materialize fault) :=
  ⟨fault, rfl⟩

theorem readValue_failsOnly_materialize (type : DataType) (nullable : Bool) (node : Json) :
    FailsOnly IsMaterializeError (readValue type nullable node) :=
  (readValue_failsOnly type nullable node).mono fun _ ⟨fault, h, _⟩ => ⟨fault, h⟩

theorem ValueAccess.node_failsOnly_materialize (access : ValueAccess) (node : Json)
    (ordinals : Option (List Json)) : FailsOnly IsMaterializeError (access.node node ordinals) := by
  unfold ValueAccess.node
  split
  · exact .ok _
  · split
    · exact .ok _
    · exact .error (isMaterializeError _)
  · exact .error (isMaterializeError _)

namespace EntityRead

theorem readProperty_failsOnly_materialize (r : EntityRead) (node : Json) (name : String) :
    FailsOnly IsMaterializeError (r.readProperty node name) := by
  unfold readProperty
  split
  · exact .error (isMaterializeError _)
  · dsimp only
    split
    · exact .error (isMaterializeError _)
    · exact .ite (fun _ => .error (isMaterializeError _)) fun _ => .ok _

theorem readProperties_failsOnly_materialize (r : EntityRead) (node : Json) :
    FailsOnly IsMaterializeError (r.readProperties node) :=
  .bind (.mapM fun p _ => .bind (r.readProperty_failsOnly_materialize node p.name) fun _ _ => .ok _)
    fun _ _ => .ok _

end EntityRead

/-! ## 3. Classes of steps -/

/-- A class of steps that has those of shaping, as far as they record entities under the modes
`records`, and is closed under taking one after another. -/
structure StepClass (C : ∀ {α : Type}, Shaping α → Prop) (records : IdentityMode → Prop) : Prop where
  pure : ∀ {α : Type} (a : α), C (Pure.pure a : Shaping α)
  fail : ∀ {α : Type} (fault : MaterializeFault), C (Shaping.fail fault : Shaping α)
  bind : ∀ {α β : Type} {m : Shaping α} {f : α → Shaping β}, C m → (∀ a, C (f a)) → C (m >>= f)
  freshId : C Shaping.freshId
  findEntity : ∀ (mode : IdentityMode) (entityType : String) (key : List Scalar),
    C (Shaping.findEntity mode entityType key)
  recordEntity : ∀ {mode : IdentityMode}, records mode → ∀ (entityType : String) (key : List Scalar)
    (entity : Item), C (Shaping.recordEntity mode entityType key entity)

namespace StepClass

variable {C : ∀ {α : Type}, Shaping α → Prop} {records : IdentityMode → Prop}

theorem ofExcept (h : StepClass C records) {α : Type} {x : Except RunError α}
    (hx : FailsOnly IsMaterializeError x) : C (Shaping.ofExcept x) := by
  cases x with
  | ok a => exact h.pure a
  | error e =>
    obtain ⟨fault, rfl⟩ := hx e rfl
    exact h.fail fault

theorem mapM (h : StepClass C records) {α β : Type} {f : α → Shaping β} : ∀ {as : List α},
    (∀ a ∈ as, C (f a)) → C (as.mapM f)
  | [], _ => h.pure []
  | a :: as, hf => by
    rw [List.mapM_cons]
    refine h.bind (hf a List.mem_cons_self) fun b => ?_
    exact h.bind (h.mapM fun x hx => hf x (List.mem_cons_of_mem _ hx)) fun bs => h.pure _

end StepClass

/-! ## 4. Shaping -/

namespace RowShaper

variable {C : ∀ {α : Type}, Shaping α → Prop} {records : IdentityMode → Prop}

mutual

theorem mem_shapeNode (h : StepClass C records) : ∀ (s : RowShaper),
    (∀ owned r, s.Occurs r owned → records r.identity) → ∀ (ordinals : Option (List Json))
    (node : Json), C (s.shapeNode ordinals node)
  | .read access type nullable, _, ordinals, node => by
    rw [shapeNode]
    refine h.bind (h.ofExcept (access.node_failsOnly_materialize node ordinals)) fun raw => ?_
    exact h.bind (h.ofExcept (readValue_failsOnly_materialize type nullable raw)) fun v => h.pure _
  | .entity info embedded, modes, ordinals, node => by
    rw [shapeNode]
    split
    · exact h.fail _
    · exact mem_shapeEntity h info embedded (modes false info (.here embedded))
        (fun f hf owned r hr => modes true r (.embedded hf hr)) _
  | .collection path element, modes, ordinals, node => by
    rw [shapeNode]
    split
    · exact h.pure _
    · refine h.bind (h.mapM fun item _ => ?_) fun items => h.pure _
      exact mem_shapeNode h element (fun owned r hr => modes owned r (.element hr)) none item
    · exact h.fail _
  | .record fields, modes, ordinals, node => by
    rw [shapeNode]
    refine h.bind ?_ fun items => h.pure _
    exact mem_shapeFields h fields (fun f hf owned r hr => modes owned r (.field hf hr)) ordinals node
  | .constant value, _, ordinals, node => by
    rw [shapeNode]
    exact h.pure _

theorem mem_shapeEntity (h : StepClass C records) (info : EntityRead) :
    ∀ (embedded : List (String × RowShaper)), records info.identity →
    (∀ f ∈ embedded, ∀ owned r, f.2.Occurs r owned → records r.identity) → ∀ (node : Json),
    C (shapeEntity info node embedded)
  | embedded, mode, modes, node => by
    rw [shapeEntity]
    split
    · split
      · exact h.pure _
      · exact h.fail _
    · split
      · exact mem_makeEntity h info embedded modes node
      · refine h.bind (h.ofExcept (.mapM fun k _ =>
          info.readProperty_failsOnly_materialize node k)) fun key => ?_
        refine h.bind (h.findEntity _ _ _) fun existing => ?_
        split
        · exact h.pure _
        · refine h.bind (mem_makeEntity h info embedded modes node) fun entity => ?_
          exact h.recordEntity mode _ _ _

theorem mem_makeEntity (h : StepClass C records) (info : EntityRead) :
    ∀ (embedded : List (String × RowShaper)),
    (∀ f ∈ embedded, ∀ owned r, f.2.Occurs r owned → records r.identity) → ∀ (node : Json),
    C (makeEntity info node embedded)
  | embedded, modes, node => by
    rw [makeEntity]
    refine h.bind (h.ofExcept (info.readProperties_failsOnly_materialize node)) fun values => ?_
    refine h.bind (mem_shapeFields h embedded modes none node) fun fields => ?_
    exact h.bind h.freshId fun id => h.pure _

theorem mem_shapeFields (h : StepClass C records) : ∀ (fields : List (String × RowShaper)),
    (∀ f ∈ fields, ∀ owned r, f.2.Occurs r owned → records r.identity) →
    ∀ (ordinals : Option (List Json)) (node : Json), C (shapeFields ordinals node fields)
  | [], _, ordinals, node => by
    rw [shapeFields]
    exact h.pure _
  | (name, s) :: rest, modes, ordinals, node => by
    rw [shapeFields]
    refine h.bind (mem_shapeNode h s (modes _ List.mem_cons_self) ordinals node) fun first => ?_
    refine h.bind ?_ fun others => h.pure _
    exact mem_shapeFields h rest (fun f hf => modes f (List.mem_cons_of_mem _ hf)) ordinals node

end

/-- **Shaping a row is in every class of steps** that records entities under the modes of the
shaper. -/
theorem mem_shapeRow (h : StepClass C records) {s : RowShaper}
    (modes : ∀ owned r, s.Occurs r owned → records r.identity) (row : Row) : C (s.shapeRow row) := by
  cases row with
  | document body => exact mem_shapeNode h s modes none body
  | ordinal values => exact mem_shapeNode h s modes (some values) .null

end RowShaper

end DocQuery
