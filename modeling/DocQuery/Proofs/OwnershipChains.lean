/-
# Chains of owners

Which entity types can be expanded.  The expansion follows the navigations of a model, which may
lead in circles or to types that are not there, and takes along the names of the types it has come
through.  It succeeds exactly when nothing is missing in the types that are reached and no chain
of navigations from the root comes through one name twice (`Model.entityShaper_outcome`); two
chains may well come to one type.

* The proof unrolls both sides in step: what has to hold below a type, given the names of its
  owners, is the same for each type that it owns, with that type's name among the owners
  (`Model.clearBelow_iff`).
* It has an outcome for every model: each navigation leaves fewer names that are not among the
  owners.
* A chain without repetition is no longer than the model (`Chain.length_le`), which bounds how
  deep the expansion goes.

All outcomes but success are errors of the model.
-/
import DocQuery.Proofs.LookupRoundTrip
import DocQuery.Proofs.OwnedTypes
import Mathlib.Data.List.Chain
import Mathlib.Data.List.Nodup

namespace DocQuery

/-! ## 1. Chains -/

/-- Every key property is a property. -/
def EntityType.KeysListed (t : EntityType) : Prop := ∀ k ∈ t.key, ∃ p ∈ t.properties, p.name = k

theorem EntityType.keysListed_iff {t : EntityType} :
    t.KeysListed ↔ ∃ properties, t.keyProperties = .ok properties := by
  have found : ∀ k, (∃ p, t.property k = .ok p) ↔ ∃ p ∈ t.properties, p.name = k := by
    intro k
    constructor
    · rintro ⟨p, hp⟩
      exact ⟨p, property_eq_ok hp⟩
    · rintro ⟨p, member, named⟩
      have present : (t.property? k).isSome :=
        List.find?_isSome.2 ⟨p, member, beq_iff_eq.2 named⟩
      obtain ⟨q, hq⟩ := Option.isSome_iff_exists.1 present
      exact ⟨q, by rw [property, hq]⟩
  rw [keyProperties, exists_mapM_iff]
  exact forall₂_congr fun k _ => (found k).symm

namespace Model

variable {m : Model} {t u : EntityType} {owned : List EntityType} {owners : List String}

/-- Every navigation leads to an entity type of the model. -/
def TargetsKnown (m : Model) (t : EntityType) : Prop :=
  ∀ n ∈ t.embedded, ∃ u, m.entityType? n.target = some u

/-- Entity types of which each owns the next. -/
def Chain (m : Model) (t : EntityType) (owned : List EntityType) : Prop :=
  List.IsChain m.Owns (t :: owned)

theorem chain_nil : m.Chain t [] := .singleton t

theorem chain_cons : m.Chain t (u :: owned) ↔ m.Owns t u ∧ m.Chain u owned :=
  List.isChain_cons_cons

/-- The types of a chain are types of the model. -/
theorem Chain.mem_values : ∀ {t : EntityType} {owned : List EntityType}, m.Chain t owned →
    ∀ u ∈ owned, u ∈ m.entityTypes.values
  | _, v :: _, chain, u, member => by
    obtain ⟨⟨n, -, target⟩, rest⟩ := chain_cons.1 chain
    rcases List.mem_cons.1 member with rfl | member
    · exact mem_values_of_entityType? target
    · exact rest.mem_values u member

/-- **A chain without repetition is no longer than the model.** -/
theorem Chain.length_le (chain : m.Chain t owned) (distinct : (owned.map (·.name)).Nodup) :
    owned.length ≤ m.entityTypes.size := by
  have within := (List.Nodup.of_map _ distinct).length_le_of_subset chain.mem_values
  rwa [Dictionary.values, List.length_map] at within

/-! ## 2. What lies below a type -/

/-- Nothing is missing in the types that a type reaches, and no chain of navigations from it comes
through one name twice or through the name of an owner. -/
structure ClearBelow (m : Model) (owners : List String) (t : EntityType) : Prop where
  listed : ∀ u, m.Reaches t u → u.KeysListed
  known : ∀ u, m.Reaches t u → m.TargetsKnown u
  distinct : ∀ owned, m.Chain t owned → (owned.map (·.name)).Nodup
  fresh : ∀ owned, m.Chain t owned → ∀ u ∈ owned, u.name ∉ owners

/-- It is enough to look at the types that a type owns, with their names among the owners. -/
theorem clearBelow_iff : m.ClearBelow owners t ↔ t.KeysListed ∧ ∀ n ∈ t.embedded,
    ∃ u, m.entityType? n.target = some u ∧ u.name ∉ owners ∧ m.ClearBelow (u.name :: owners) u := by
  constructor
  · intro clear
    refine ⟨clear.listed t (.refl m t), fun n member => ?_⟩
    obtain ⟨u, target⟩ := clear.known t (.refl m t) n member
    have owns : m.Owns t u := ⟨n, member, target⟩
    have longer : ∀ {owned}, m.Chain u owned → m.Chain t (u :: owned) := fun chain =>
      chain_cons.2 ⟨owns, chain⟩
    have free := clear.fresh [u] (longer chain_nil) u List.mem_cons_self
    refine ⟨u, target, free, ?_, ?_, ?_, ?_⟩
    · exact fun v reached => clear.listed v (owns.reaches reached)
    · exact fun v reached => clear.known v (owns.reaches reached)
    · exact fun owned chain => (List.nodup_cons.1 (clear.distinct _ (longer chain))).2
    · intro owned chain v member named
      rcases List.mem_cons.1 named with named | named
      · have other := (List.nodup_cons.1 (clear.distinct _ (longer chain))).1
        exact other (List.mem_map.2 ⟨v, member, named⟩)
      · exact clear.fresh _ (longer chain) v (List.mem_cons_of_mem _ member) named
  · rintro ⟨listed, below⟩
    have step : ∀ {u}, m.Owns t u → u.name ∉ owners ∧ m.ClearBelow (u.name :: owners) u := by
      rintro u ⟨n, member, target⟩
      obtain ⟨v, target', free, clear⟩ := below n member
      cases target.symm.trans target'
      exact ⟨free, clear⟩
    -- a type below is the type itself or below one that it owns
    have reached : ∀ {P : EntityType → Prop}, P t →
        (∀ u, m.Owns t u → ∀ v, m.Reaches u v → P v) → ∀ v, m.Reaches t v → P v := by
      intro P here there v h
      rcases Relation.ReflTransGen.cases_head h with rfl | ⟨u, owns, h⟩
      · exact here
      · exact there u owns v h
    constructor
    · exact reached listed fun u owns => (step owns).2.listed
    · refine reached (fun n member => ?_) fun u owns => (step owns).2.known
      obtain ⟨u, target, -⟩ := below n member
      exact ⟨u, target⟩
    · rintro (_ | ⟨u, owned⟩) chain
      · exact List.nodup_nil
      · obtain ⟨owns, chain⟩ := chain_cons.1 chain
        refine List.nodup_cons.2 ⟨fun repeated => ?_, (step owns).2.distinct owned chain⟩
        obtain ⟨v, member, named⟩ := List.mem_map.1 repeated
        exact (step owns).2.fresh owned chain v member (named ▸ List.mem_cons_self)
    · rintro (_ | ⟨u, owned⟩) chain v member
      · cases member
      · obtain ⟨owns, chain⟩ := chain_cons.1 chain
        rcases List.mem_cons.1 member with rfl | member
        · exact (step owns).1
        · exact fun named => (step owns).2.fresh owned chain v member (List.mem_cons_of_mem _ named)

/-! ## 3. Expansion -/

/-- **A type is expanded exactly when the way below it is clear**, wherever it lies.  The recursion
is that of the expansion. -/
theorem exists_expandEntity_iff (m : Model) (t : EntityType) (path : List String) (nullable : Bool)
    (identity : IdentityMode) (owners : List String) :
    (∃ s, expandEntity m t path nullable identity owners = .ok s) ↔
      (identity ≠ .none → t.key ≠ []) ∧ m.ClearBelow owners t := by
  have keyed : (identity ≠ .none && t.key.isEmpty) = true ↔ ¬ (identity ≠ .none → t.key ≠ []) := by
    rw [Bool.and_eq_true, decide_eq_true_iff, List.isEmpty_iff, Classical.not_imp, not_not]
  rw [expandEntity, clearBelow_iff, EntityType.keysListed_iff]
  by_cases keyless : (identity ≠ .none && t.key.isEmpty) = true
  · rw [if_pos keyless]
    refine ⟨?_, fun h => absurd h.1 (keyed.1 keyless)⟩
    rintro ⟨_, h⟩
    cases h
  rw [if_neg keyless, and_iff_right (not_not.1 (mt keyed.2 keyless))]
  simp only [exists_bind_iff, pure_eq_ok, exists_eq', and_true, exists_and_right, exists_mapM_iff]
  refine and_congr_right fun _ => forall₂_congr fun n _ => ?_
  split
  · next missing =>
    constructor
    · rintro ⟨_, h⟩
      cases h
    · rintro ⟨u, target, -⟩
      cases missing.symm.trans target
  · next u target =>
    have only : (∃ v, m.entityType? n.target = some v ∧ v.name ∉ owners ∧
        m.ClearBelow (v.name :: owners) v) ↔ u.name ∉ owners ∧
        m.ClearBelow (u.name :: owners) u := by
      rw [target]
      simp only [Option.some.injEq, exists_eq_left']
    rw [only]
    split
    · next repeated =>
      refine ⟨?_, fun h => absurd repeated h.1⟩
      rintro ⟨_, h⟩
      cases h
    · next fresh =>
      have := length_unowned_cons_lt (mem_values_of_entityType? target) fresh
      have inner : ∀ path nullable, (∃ s, expandEntity m u path nullable .none
          (u.name :: owners) = .ok s) ↔ m.ClearBelow (u.name :: owners) u := by
        intro path nullable
        rw [exists_expandEntity_iff m u path nullable .none (u.name :: owners)]
        exact and_iff_right fun h => absurd rfl h
      rw [and_iff_right fresh]
      split
      · rw [exists_map_iff, inner]
      · rw [exists_map_iff, inner]
termination_by (m.unowned owners).length

/-- **The types that can be expanded.**  The expansion has an outcome for every model, in circles as
well: it succeeds exactly when the type has a key if one is needed, no target and no key property
is missing in the types that are reached, and no name repeats along a chain of navigations.  All
other outcomes are errors of the model. -/
theorem entityShaper_outcome (m : Model) (t : EntityType) (path : List String) (nullable : Bool)
    (identity : IdentityMode) :
    ((∃ s, m.entityShaper t path nullable identity = .ok s) ↔
      (identity ≠ .none → t.key ≠ []) ∧ (∀ u, m.Reaches t u → m.TargetsKnown u) ∧
      (∀ u, m.Reaches t u → u.KeysListed) ∧
      ∀ owned, m.Chain t owned → ((t :: owned).map (·.name)).Nodup) ∧
    FailsOnly IsModelError (m.entityShaper t path nullable identity) ∧
    ∀ owned, m.Chain t owned → (owned.map (·.name)).Nodup → owned.length ≤ m.entityTypes.size := by
  refine ⟨?_, expandEntity_failsOnly m t path nullable identity _, fun _ => Chain.length_le⟩
  rw [entityShaper, exists_expandEntity_iff]
  refine and_congr_right fun _ => ⟨fun clear => ⟨clear.known, clear.listed, ?_⟩, ?_⟩
  · intro owned chain
    refine List.nodup_cons.2 ⟨fun repeated => ?_, clear.distinct owned chain⟩
    obtain ⟨u, member, named⟩ := List.mem_map.1 repeated
    exact clear.fresh owned chain u member (List.mem_singleton.2 named)
  · rintro ⟨known, listed, distinct⟩
    refine ⟨listed, known, fun owned chain => (List.nodup_cons.1 (distinct owned chain)).2, ?_⟩
    intro owned chain u member owner
    refine (List.nodup_cons.1 (distinct owned chain)).1 (List.mem_map.2 ⟨u, member, ?_⟩)
    exact List.mem_singleton.1 owner

end Model

/-! ## 4. Two chains to one type -/

def invoice : EntityType where
  name := "Invoice"
  container := ""
  properties := []
  key := []
  partitionKey := none
  embedded := [⟨"Payer", "Address", "payer", false⟩]

def parcel : EntityType where
  name := "Parcel"
  container := ""
  properties := []
  key := []
  partitionKey := none
  embedded := [⟨"Receiver", "Address", "receiver", false⟩]

/-- An order reaches addresses by its invoice and by its parcels. -/
def order : EntityType where
  name := "Order"
  container := "orders"
  properties := [⟨"Id", .int32, false, "id", none⟩]
  key := ["Id"]
  partitionKey := none
  embedded := [⟨"Invoice", "Invoice", "invoice", false⟩, ⟨"Parcels", "Parcel", "parcels", true⟩]

def orderModel : Model := .ofList [address, invoice, parcel, order]

theorem owns_order {u : EntityType} (owns : orderModel.Owns order u) :
    u = invoice ∨ u = parcel := by
  obtain ⟨n, member, target⟩ := owns
  rcases List.mem_cons.1 member with rfl | member
  · exact .inl (Option.some.inj target).symm
  · rw [List.mem_singleton.1 member] at target
    exact .inr (Option.some.inj target).symm

theorem owns_part {t u : EntityType} (part : t = invoice ∨ t = parcel)
    (owns : orderModel.Owns t u) : u = address := by
  obtain ⟨n, member, target⟩ := owns
  rcases part with rfl | rfl <;> rw [List.mem_singleton.1 member] at target <;>
    exact (Option.some.inj target).symm

theorem not_owns_address {u : EntityType} : ¬ orderModel.Owns address u := by
  rintro ⟨_, member, -⟩
  cases member

theorem reaches_order {u : EntityType} (h : orderModel.Reaches order u) :
    u = order ∨ (u = invoice ∨ u = parcel) ∨ u = address := by
  induction h with
  | refl => exact .inl rfl
  | tail _ owns ih =>
    rcases ih with rfl | part | rfl
    · exact .inr (.inl (owns_order owns))
    · exact .inr (.inr (owns_part part owns))
    · exact absurd owns not_owns_address

/-- The shaper of orders is made, although they come to addresses along two chains. -/
theorem entityShaper_order :
    (∃ s, orderModel.entityShaper order [] false .tracked = .ok s) ∧
    orderModel.Chain order [invoice, address] ∧ orderModel.Chain order [parcel, address] := by
  have single : ∀ {t u : EntityType} (n : Navigation), n ∈ t.embedded →
      orderModel.entityType? n.target = some u → orderModel.Owns t u := fun n member target =>
    ⟨n, member, target⟩
  refine ⟨(Model.entityShaper_outcome orderModel order [] false .tracked).1.2
    ⟨by decide, ?_, ?_, ?_⟩, ?_, ?_⟩
  · intro u reached n member
    have known : (orderModel.entityType? n.target).isSome := by
      rcases reaches_order reached with rfl | (rfl | rfl) | rfl <;> revert n <;> decide
    exact Option.isSome_iff_exists.1 known
  · intro u reached
    rcases reaches_order reached with rfl | (rfl | rfl) | rfl <;> unfold EntityType.KeysListed <;>
      decide
  · rintro (_ | ⟨u, _ | ⟨v, owned⟩⟩) chain
    · decide
    · rcases owns_order (Model.chain_cons.1 chain).1 with rfl | rfl <;> decide
    · obtain ⟨first, chain⟩ := Model.chain_cons.1 chain
      obtain ⟨second, chain⟩ := Model.chain_cons.1 chain
      have part := owns_order first
      cases owns_part part second
      cases owned with
      | nil => rcases part with rfl | rfl <;> decide
      | cons w owned => exact absurd (Model.chain_cons.1 chain).1 not_owns_address
  · exact Model.chain_cons.2 ⟨single _ List.mem_cons_self rfl,
      Model.chain_cons.2 ⟨single _ List.mem_cons_self rfl, Model.chain_nil⟩⟩
  · exact Model.chain_cons.2 ⟨single _ (List.mem_cons_of_mem _ List.mem_cons_self) rfl,
      Model.chain_cons.2 ⟨single _ List.mem_cons_self rfl, Model.chain_nil⟩⟩

end DocQuery
