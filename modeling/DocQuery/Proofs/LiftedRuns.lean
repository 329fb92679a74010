/-
# Runs of lifts

A compilation lifts one constant after another into a table that starts empty, and all that a plan
keeps of each is the name it was given.  The table stays INTERNED over such a run: no two entries
have one name, and no two have both resolution and declared type in common (`Interned`).  So a
name refers to one entry only, the one with the resolution and the type of the constant that was
lifted (`Refers`), and refers to it still after later lifts, whatever names they ask for
(`Interned.refers_liftAll`).

* The search for a free name ends, and gives the first of the candidates that is free
  (`ConstantTable.freeName_eq_suffixed`); it comes no later than there are entries.
* One lift keeps a table interned (`Interned.lift`): the constant is there already, or a new entry
  gets a name that no other has.

Frozen and resolved in any context, the table gives each reference the value of its own resolution
(`ConstantTable.lifted_run`).  It freezes exactly when the captured values have the declared
types, resolving fails only for what a model lacks, and reading a reference at its type finds
neither a missing name nor another type.
-/
import DocQuery.Proofs.LookupRoundTrip
import DocQuery.Proofs.OwnedTypes
import Mathlib.Data.List.Nodup

namespace DocQuery

/-! ## 1. The search for a free name -/

namespace ConstantTable

variable {t t' : ConstantTable} {c : LiftedConstant} {name : String}

/-- The names that are tried one after another, without end. -/
def suffixed (name : String) : Nat → String
  | 0 => name
  | i + 1 => name ++ "_" ++ toString (i + 1)

theorem candidates_eq_map (t : ConstantTable) (name : String) :
    t.candidates name = (List.range (t.entries.length + 1)).map (suffixed name) := by
  rw [List.range_succ_eq_map, List.map_cons, List.map_map]
  rfl

/-- **The search for a name ends.**  It gives the first free name, which comes no later than there
are entries. -/
theorem freeName_eq_suffixed (t : ConstantTable) (name : String) :
    ∃ k ≤ t.entries.length, t.freeName name = suffixed name k ∧
      t.isTaken (suffixed name k) = false ∧ ∀ j < k, t.isTaken (suffixed name j) = true := by
  obtain ⟨free, member, isFree⟩ := t.exists_free name
  have found : ((t.candidates name).find? fun n => !t.isTaken n).isSome :=
    List.find?_isSome.2 ⟨free, member, by rw [isFree]; rfl⟩
  obtain ⟨first, hfirst⟩ := Option.isSome_iff_exists.1 found
  have given : t.freeName name = first := by rw [freeName, hfirst, Option.getD_some]
  obtain ⟨hfree, k, hk, at_k, before⟩ := List.find?_eq_some_iff_getElem.1 hfirst
  simp only [candidates_eq_map, List.length_map, List.length_range, List.getElem_map,
    List.getElem_range, Bool.not_not] at hk at_k before
  refine ⟨k, Nat.lt_succ_iff.1 hk, given.trans at_k.symm, ?_, before⟩
  rw [at_k]
  simpa using hfree

/-! ## 2. Interned tables -/

/-- Two entries differ in their names, and in their resolutions or their types. -/
structure Interned (t : ConstantTable) : Prop where
  names : (t.entries.map (·.name)).Nodup
  constants : (t.entries.map fun e => (e.resolution, e.declared)).Nodup

/-- The name is that of one entry, which is the one with the resolution and type of the constant. -/
def Refers (t : ConstantTable) (name : String) (c e : LiftedConstant) : Prop :=
  e ∈ t.entries ∧ ∀ other ∈ t.entries, (other.name = name ↔ other = e) ∧
    ((other.resolution, other.declared) = (c.resolution, c.declared) ↔ other = e)

theorem interned_empty : Interned empty := ⟨List.nodup_nil, List.nodup_nil⟩

/-- Lifting keeps a table interned. -/
theorem Interned.lift (interned : t.Interned) (c : LiftedConstant) : (t.lift c).2.Interned := by
  refine ⟨(t.lifts_lift c).distinct interned.names, ?_⟩
  unfold ConstantTable.lift
  split
  · exact interned.constants
  · next new =>
    rw [List.map_append, List.map_singleton, List.nodup_append]
    refine ⟨interned.constants, List.nodup_singleton _, ?_⟩
    intro known hknown added hadded same
    obtain ⟨e, member, rfl⟩ := List.mem_map.1 hknown
    have differs := List.find?_eq_none.1 new e member
    rw [List.mem_singleton.1 hadded, Prod.mk.injEq] at same
    exact differs (by rw [same.1, same.2, beq_self_eq_true, beq_self_eq_true]; rfl)

/-- In an interned table a name refers to the entry that has it. -/
theorem Interned.refers (interned : t.Interned) (has : t.Has name c.resolution c.declared) :
    ∃ e, t.Refers name c e := by
  obtain ⟨e, member, rfl, hresolution, hdeclared⟩ := has
  refine ⟨e, member, fun other hother => ⟨⟨fun h => ?_, congrArg _⟩, fun h => ?_, ?_⟩⟩
  · exact List.inj_on_of_nodup_map interned.names hother member h
  · rw [← hresolution, ← hdeclared] at h
    exact List.inj_on_of_nodup_map interned.constants hother member h
  · rintro rfl
    rw [hresolution, hdeclared]

/-- A name refers to its entry still when entries are added. -/
theorem Refers.mono {e : LiftedConstant} (refers : t.Refers name c e) (interned : t'.Interned)
    (keeps : t.entries ⊆ t'.entries) : t'.Refers name c e := by
  obtain ⟨member, only⟩ := refers
  have own := only e member
  obtain ⟨same, both⟩ := And.intro (own.1.2 rfl) (own.2.2 rfl)
  refine ⟨keeps member, fun other hother => ⟨⟨fun h => ?_, ?_⟩, fun h => ?_, ?_⟩⟩
  · exact List.inj_on_of_nodup_map interned.names hother (keeps member) (h.trans same.symm)
  · rintro rfl
    exact same
  · exact List.inj_on_of_nodup_map interned.constants hother (keeps member) (h.trans both.symm)
  · rintro rfl
    exact both

/-! ## 3. Runs -/

/-- Lifts constants one after another.  Gives their names and the table. -/
def liftAll (t : ConstantTable) : List LiftedConstant → List String × ConstantTable
  | [] => ([], t)
  | c :: cs =>
    let (name, t) := t.lift c
    let (names, t) := t.liftAll cs
    (name :: names, t)

theorem entries_subset_liftAll (t : ConstantTable) (cs : List LiftedConstant) :
    t.entries ⊆ (t.liftAll cs).2.entries := by
  induction cs generalizing t with
  | nil => exact fun _ => id
  | cons c cs ih => exact fun _ member => ih _ ((t.lifts_lift c).keeps member)

theorem Interned.liftAll (interned : t.Interned) (cs : List LiftedConstant) :
    (t.liftAll cs).2.Interned := by
  induction cs generalizing t with
  | nil => exact interned
  | cons c cs ih => exact ih (interned.lift c)

/-- At the end of a run each constant is found under the name it was given. -/
theorem has_liftAll (t : ConstantTable) (cs : List LiftedConstant) :
    List.Forall₂ (fun name c => (t.liftAll cs).2.Has name c.resolution c.declared)
      (t.liftAll cs).1 cs := by
  induction cs generalizing t with
  | nil => exact .nil
  | cons c cs ih =>
    exact .cons ((t.lifts_lift c).has.mono (entries_subset_liftAll _ cs)) (ih (t.lift c).2)

/-- **A reference keeps its entry**, whatever is lifted later. -/
theorem Interned.refers_liftAll (interned : t.Interned) (c : LiftedConstant)
    (later : List LiftedConstant) :
    ∃ e, (t.lift c).2.Refers (t.lift c).1 c e ∧
      ((t.lift c).2.liftAll later).2.Refers (t.lift c).1 c e := by
  obtain ⟨e, refers⟩ := (interned.lift c).refers (t.lifts_lift c).has
  exact ⟨e, refers, refers.mono ((interned.lift c).liftAll later) (entries_subset_liftAll _ later)⟩

end ConstantTable

/-! ## 4. Frozen runs -/

/-- Reads a constant at a type. -/
def ResolvedConstants.read (r : ResolvedConstants) (type : ConstantType) (name : String) :
    Except QueryError ConstantValue :=
  match type with
  | .sqlGeneratorFactory => (r.sqlGeneratorFactory name).map fun _ => .sqlGeneratorFactory
  | .sqlExpressionFactory => (r.sqlExpressionFactory name).map fun _ => .sqlExpressionFactory
  | .entityType => (r.entityType name).map .entityType
  | .property => (r.property name).map .property

/-- A constant that is there is read at its own type. -/
theorem ResolvedConstants.read_of_find? {r : ResolvedConstants} {name : String} {v : ConstantValue}
    (h : r.find? name = some v) : r.read v.type name = .ok v := by
  have got : r.get name = .ok v := by rw [get, h]
  cases v with
  | sqlGeneratorFactory | sqlExpressionFactory | entityType | property =>
    simp only [read, ConstantValue.type, sqlGeneratorFactory, sqlExpressionFactory, entityType,
      property, getAs, got]
    rfl

namespace ConstantTable

/-- **What a run of lifts comes to.**  The search for a name ends, the table is interned, and the
name that a lift returns refers to the entry of its constant and keeps doing so.  The table freezes
exactly when the types agree, in its order and with its names; and in whatever context the frozen
table is resolved, that fails for what the model lacks or gives each reference the value of its own
resolution, which is read at its declared type. -/
theorem lifted_run (cs : List LiftedConstant) :
    let names := (empty.liftAll cs).1
    let t := (empty.liftAll cs).2
    (∀ name, ∃ k ≤ t.entries.length, t.freeName name = suffixed name k ∧
      t.isTaken (suffixed name k) = false ∧ ∀ j < k, t.isTaken (suffixed name j) = true) ∧
    t.Interned ∧
    (∀ c later, ∃ e, (t.lift c).2.Refers (t.lift c).1 c e ∧
      ((t.lift c).2.liftAll later).2.Refers (t.lift c).1 c e) ∧
    ((∃ f, t.freeze = .ok f) ↔
      ∀ e ∈ t.entries, e.resolution.type = e.declared ∧ e.captured.type = e.declared) ∧
    ∀ f, t.freeze = .ok f →
      f.slots = (t.entries.map fun e => ⟨e.name, e.resolution, e.declared⟩) ∧
      ∀ model, FailsOnly IsModelError (f.resolve model) ∧
        ∀ r, f.resolve model = .ok r → List.Forall₂ (fun name c =>
          ∃ v, c.resolution.resolve model = .ok v ∧ r.read c.declared name = .ok v) names cs := by
  intro names t
  have interned : t.Interned := interned_empty.liftAll cs
  refine ⟨t.freeName_eq_suffixed, interned, interned.refers_liftAll, exists_freeze_iff, ?_⟩
  intro f hf
  have wellFormed := wellFormed_of_freeze interned.names hf
  refine ⟨slots_of_freeze hf, fun model => ?_⟩
  refine ⟨FrozenConstants.resolve_failsOnly wellFormed model, fun r hr => ?_⟩
  refine (has_liftAll empty cs).imp fun name c has => ?_
  obtain ⟨v, hv, found⟩ := FrozenConstants.find?_resolve wellFormed hr (has.frozen hf)
  refine ⟨v, hv, ?_⟩
  obtain ⟨e, member, -, hresolution, hdeclared⟩ := has
  have typed := (exists_freeze_iff.1 ⟨f, hf⟩ e member).1
  rw [← hdeclared, ← typed, hresolution, ← Resolution.type_of_resolve hv]
  exact ResolvedConstants.read_of_find? found

/-- Constants of contacts.  The second asks for the name that the third would get without it. -/
def contactConstants : List LiftedConstant :=
  [⟨.property ⟨"Id", .int32, false, "id", none⟩, .property "Contact" "Id", "p", .property⟩,
    ⟨.entityType contact, .entityType "Contact", "p_1", .entityType⟩,
    ⟨.property ⟨"Tag", .utf8, true, "tag", none⟩, .property "Contact" "Tag", "p", .property⟩]

/-- The third constant gets the next number, and each reference is read at its declared type. -/
theorem lifted_run_contact : (empty.liftAll contactConstants).1 = ["p", "p_1", "p_2"] ∧
    ∃ f r, (empty.liftAll contactConstants).2.freeze = .ok f ∧ f.resolve contactModel = .ok r ∧
      List.Forall₂ (fun name c => ∃ v, c.resolution.resolve contactModel = .ok v ∧
        r.read c.declared name = .ok v) ["p", "p_1", "p_2"] contactConstants := by
  have names : (empty.liftAll contactConstants).1 = ["p", "p_1", "p_2"] := by decide
  obtain ⟨-, -, -, freezes, frozen⟩ := lifted_run contactConstants
  obtain ⟨f, hf⟩ := freezes.2 (by decide)
  obtain ⟨slots, resolves⟩ := frozen f hf
  obtain ⟨r, hr⟩ : ∃ r, f.resolve contactModel = .ok r := by
    rw [FrozenConstants.resolve, slots]
    exact ⟨_, rfl⟩
  exact ⟨names, f, r, hf, hr, names ▸ (resolves contactModel).2 r hr⟩

end ConstantTable

end DocQuery
