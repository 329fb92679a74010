/-
# Quoted lookups come back

A plan outlives the context that it was compiled in, so the lookup of a plan is QUOTED: its entity
type and its properties are replaced by the names of constants, which are resolved again in the
context that the plan runs in.  Lookups that are quoted one after another share one constant
table.  They may name the same entity type, the same property, or different properties of one
name, and still each of them is rebuilt as it was, in every context whose model holds their entity
types (`quotes_round_trip`).

The table carries the proof.

* What its constants have in common is kept by lifting (`ConstantTable.All`).  Two things are: a
  value has the declared type, so the table can be frozen (`ConstantTable.exists_freeze_iff`), and
  a value is what its resolution finds in a model (`FoundIn`).
* Where every resolution finds the value that was captured, resolving the frozen table gives the
  captured values themselves (`ConstantTable.resolve_freeze`).  So both ways to rebuild a lookup,
  from the captured values and from the resolved ones, are one.
* No name changes its entry while lookups are quoted (`PointLookup.quoteAll_spec`), so the names
  in an early lookup still stand for its constants when the last one has been quoted.

Compiling compares a lookup with its own quoted form rebuilt, and has an error for the case that
they differ.  It is never given (`Compiler.compileLookup_not_quoteMismatch`).
-/
import DocQuery.Plan
import DocQuery.Proofs.ConstantTable
import Mathlib.Data.List.Forall2

namespace DocQuery

/-! ## 1. What the constants of a table have in common -/

namespace ConstantTable

/-- Every constant of the table satisfies `P`, whatever its name. -/
def All (P : ConstantValue → Resolution → ConstantType → Prop) (t : ConstantTable) : Prop :=
  ∀ e ∈ t.entries, P e.captured e.resolution e.declared

variable {P : ConstantValue → Resolution → ConstantType → Prop} {t : ConstantTable}

theorem all_empty : All P empty := fun _ he => absurd he List.not_mem_nil

theorem All.lift (h : t.All P) {c : LiftedConstant} (hc : P c.captured c.resolution c.declared) :
    (t.lift c).2.All P := by
  unfold ConstantTable.lift
  split
  · exact h
  · intro e he
    rcases List.mem_append.1 he with he | he
    · exact h e he
    · rw [List.mem_singleton.1 he]
      exact hc

/-- A constant whose value and resolution have the declared type. -/
def Typed (v : ConstantValue) (r : Resolution) (declared : ConstantType) : Prop :=
  r.type = declared ∧ v.type = declared

/-- A constant whose value is what its resolution finds in a model. -/
def FoundIn (model : Model) (v : ConstantValue) (r : Resolution) (_ : ConstantType) : Prop :=
  r.resolve model = .ok v

/-- The tables that can be frozen are those of typed constants. -/
theorem exists_freeze_iff : (∃ f, t.freeze = .ok f) ↔ t.All Typed := by
  have each : ∀ e : LiftedConstant, (∃ s, e.freeze = .ok s) ↔
      e.resolution.type = e.declared ∧ e.captured.type = e.declared := by
    intro e
    unfold LiftedConstant.freeze
    split
    · next differs => exact ⟨fun ⟨_, h⟩ => (nomatch h), fun h => absurd h.1 differs⟩
    · next found =>
      split
      · next differs => exact ⟨fun ⟨_, h⟩ => (nomatch h), fun h => absurd h.2 differs⟩
      · next captured =>
        have typed := And.intro (Decidable.not_not.1 found) (Decidable.not_not.1 captured)
        exact ⟨fun _ => typed, fun _ => ⟨_, rfl⟩⟩
  rw [freeze, exists_map_iff, exists_mapM_iff]
  exact forall₂_congr fun e _ => each e

/-- **Where every resolution finds the captured value, resolving gives the captured values.** -/
theorem resolve_freeze {f : FrozenConstants} {model : Model} (typed : t.All Typed)
    (found : t.All (FoundIn model)) (hf : t.freeze = .ok f) : f.resolve model = .ok t.captured := by
  have slots : ∀ e ∈ t.entries,
      (ConstantSlot.mk e.name e.resolution e.declared).resolve model = .ok (e.name, e.captured) := by
    intro e he
    obtain ⟨-, hcaptured⟩ := typed e he
    refine bind_eq_ok.2 ⟨e.captured, found e he, ?_⟩
    rw [if_neg (Decidable.not_not.2 hcaptured)]
  refine map_eq_ok.2 ⟨t.entries.map fun e => (e.name, e.captured), ?_, rfl⟩
  rw [slots_of_freeze hf, List.mapM_map]
  exact mapM_eq_ok_map slots

/-! ## 2. Names in a table -/

theorem Quotes.mono {t' : ConstantTable} {owner : String} (hsub : t.entries ⊆ t'.entries) :
    ∀ {quoted original : List (String × String)}, t.Quotes owner quoted original →
    t'.Quotes owner quoted original
  | [], [], _ => trivial
  | (_, _) :: _, (_, _) :: _, ⟨parameter, has, rest⟩ => ⟨parameter, has.mono hsub, rest.mono hsub⟩

/-- The quoted lookup names the constants of a lookup. -/
structure QuotesLookup (t : ConstantTable) (q : QuotedLookup) (l : PointLookup) : Prop where
  container : q.container = l.container
  entityType : t.Has q.entityType (.entityType l.entityType.name) .entityType
  properties : t.Quotes l.entityType.name q.propertyParameters l.propertyParameters.entries

theorem QuotesLookup.mono {t' : ConstantTable} {q : QuotedLookup} {l : PointLookup}
    (h : t.QuotesLookup q l) (hsub : t.entries ⊆ t'.entries) : t'.QuotesLookup q l :=
  ⟨h.container, h.entityType.mono hsub, h.properties.mono hsub⟩

/-- A name stands for the value that its entry has captured. -/
theorem find?_captured (distinct : t.Distinct) {name : String} {resolution : Resolution}
    {declared : ConstantType} (has : t.Has name resolution declared) :
    ∃ e ∈ t.entries, e.resolution = resolution ∧ t.captured.find? name = some e.captured := by
  obtain ⟨e, he, rfl, hresolution, -⟩ := has
  refine ⟨e, he, hresolution, ?_⟩
  refine Dictionary.find?_ofList_of_mem ?_ (List.mem_map.2 ⟨e, he, rfl⟩)
  rw [List.map_map]
  exact distinct

variable {model : Model}

/-- The constants of properties give back the properties' names. -/
theorem Quotes.resolve (distinct : t.Distinct) (found : t.All (FoundIn model)) {owner : String} :
    ∀ {quoted original : List (String × String)}, t.Quotes owner quoted original →
    quoted.mapM (fun (e : String × String) => do
      return ((← t.captured.property e.1).name, e.2)) = .ok original
  | [], [], _ => rfl
  | (name, parameter) :: quoted, (property, _) :: original, ⟨rfl, has, rest⟩ => by
    obtain ⟨e, he, hresolution, hfind⟩ := find?_captured distinct has
    have hvalue := found e he
    simp only [FoundIn, hresolution, Resolution.resolve, bind_eq_ok, pure_eq_ok] at hvalue
    obtain ⟨owned, -, p, hp, hcaptured⟩ := hvalue
    rw [← hcaptured] at hfind
    obtain ⟨q, hq, hproperty⟩ := ResolvedConstants.property_of_find? hfind rfl
    cases hq
    refine mapM_cons_eq_ok.2 ⟨(property, parameter), original, ?_, rest.resolve distinct found, rfl⟩
    simp only [hproperty, (EntityType.property_eq_ok hp).2, bind, Except.bind, pure, Except.pure]

/-- **A lookup is rebuilt from the constants that its quoted form names.** -/
theorem QuotesLookup.resolve (distinct : t.Distinct) (found : t.All (FoundIn model))
    {q : QuotedLookup} {l : PointLookup} (h : t.QuotesLookup q l)
    (holds : model.entityType? l.entityType.name = some l.entityType) :
    q.resolve t.captured = .ok l := by
  obtain ⟨e, he, hresolution, hfind⟩ := find?_captured distinct h.entityType
  have hvalue := found e he
  simp only [FoundIn, hresolution, Resolution.resolve, Model.entityType, holds, Except.map,
    Except.ok.injEq] at hvalue
  rw [← hvalue] at hfind
  obtain ⟨owned, howned, hentity⟩ := ResolvedConstants.entityType_of_find? hfind rfl
  cases howned
  have properties := h.properties.resolve distinct found
  have rebuilt : q.resolve t.captured =
      .ok ⟨q.container, l.entityType, .ofList l.propertyParameters.entries⟩ :=
    bind_eq_ok.2 ⟨_, hentity, bind_eq_ok.2 ⟨_, properties, rfl⟩⟩
  rw [rebuilt, h.container, Dictionary.ofList_entries]

end ConstantTable

/-! ## 3. Quoting -/

namespace PointLookup

/-- Every property that the lookup maps is a property of its entity type. -/
def MapsProperties (l : PointLookup) : Prop :=
  ∀ e ∈ l.propertyParameters.entries, ∃ p ∈ l.entityType.properties, p.name = e.1

variable {factory : ConstantFactory} {l : PointLookup}

theorem exists_quoteProperties (factory : ConstantFactory) (l : PointLookup) :
    ∀ {original : List (String × String)} (t : ConstantTable),
    (∀ e ∈ original, ∃ p ∈ l.entityType.properties, p.name = e.1) →
    ∃ quoted t', l.quoteProperties factory t original = .ok (quoted, t')
  | [], t, _ => ⟨[], t, rfl⟩
  | (property, parameter) :: rest, t, h => by
    obtain ⟨p, hp⟩ : ∃ p, l.entityType.property property = .ok p := by
      obtain ⟨p, hmem, hname⟩ := h _ List.mem_cons_self
      unfold EntityType.property EntityType.property?
      split
      · exact ⟨_, rfl⟩
      · next hnone => exact absurd (beq_iff_eq.2 hname) (List.find?_eq_none.1 hnone p hmem)
    obtain ⟨quoted, t', hrest⟩ := exists_quoteProperties factory l
      (t.lift (factory (l.propertyConstant p))).2 fun e he => h e (List.mem_cons_of_mem _ he)
    exact ⟨_, t', bind_eq_ok.2 ⟨p, hp, bind_eq_ok.2 ⟨_, hrest, rfl⟩⟩⟩

theorem exists_quote (factory : ConstantFactory) (h : l.MapsProperties) (t : ConstantTable) :
    ∃ q t', l.quote factory t = .ok (q, t') := by
  obtain ⟨quoted, t', hquoted⟩ := exists_quoteProperties factory l
    (t.lift (factory l.entityTypeConstant)).2 h
  exact ⟨_, t', bind_eq_ok.2 ⟨_, hquoted, rfl⟩⟩

variable {P : ConstantValue → Resolution → ConstantType → Prop}

/-- The constants of a lookup satisfy `P`. -/
structure Provides (l : PointLookup) (P : ConstantValue → Resolution → ConstantType → Prop) :
    Prop where
  entityType : P (.entityType l.entityType) (.entityType l.entityType.name) .entityType
  property : ∀ p, l.entityType.property p.name = .ok p →
    P (.property p) (.property l.entityType.name p.name) .property

theorem provides_typed (l : PointLookup) : l.Provides ConstantTable.Typed :=
  ⟨⟨rfl, rfl⟩, fun _ _ => ⟨rfl, rfl⟩⟩

theorem provides_foundIn {model : Model}
    (holds : model.entityType? l.entityType.name = some l.entityType) :
    l.Provides (ConstantTable.FoundIn model) := by
  have entityType : model.entityType l.entityType.name = .ok l.entityType := by
    unfold Model.entityType
    rw [holds]
  exact ⟨map_eq_ok.2 ⟨_, entityType, rfl⟩, fun p hp =>
    bind_eq_ok.2 ⟨_, entityType, bind_eq_ok.2 ⟨p, hp, rfl⟩⟩⟩

theorem all_quoteProperties (hf : factory.Faithful) (provides : l.Provides P) :
    ∀ {original quoted : List (String × String)} {t t' : ConstantTable}, t.All P →
    l.quoteProperties factory t original = .ok (quoted, t') → t'.All P
  | [], quoted, t, t', ht, h => by
    simp only [quoteProperties, Except.ok.injEq, Prod.mk.injEq] at h
    rw [← h.2]
    exact ht
  | (property, parameter) :: rest, quoted, t, t', ht, h => by
    simp only [quoteProperties, bind_eq_ok, pure_eq_ok, Prod.exists, Prod.mk.injEq] at h
    obtain ⟨p, hp, quoted', t'', hrest, -, rfl⟩ := h
    have own : P (factory (l.propertyConstant p)).captured (factory (l.propertyConstant p)).resolution
        (factory (l.propertyConstant p)).declared := by
      rw [hf.captured, hf.resolution, hf.declared]
      exact provides.property p (by rw [(EntityType.property_eq_ok hp).2]; exact hp)
    exact all_quoteProperties hf provides (ht.lift own) hrest

/-- Quoting adds constants of the lookup only. -/
theorem all_quote (hf : factory.Faithful) (provides : l.Provides P) {t t' : ConstantTable}
    {q : QuotedLookup} (ht : t.All P) (h : l.quote factory t = .ok (q, t')) : t'.All P := by
  simp only [quote, bind_eq_ok, pure_eq_ok, Prod.exists, Prod.mk.injEq] at h
  obtain ⟨quoted, t'', hquoted, -, rfl⟩ := h
  have own : P (factory l.entityTypeConstant).captured (factory l.entityTypeConstant).resolution
      (factory l.entityTypeConstant).declared := by
    rw [hf.captured, hf.resolution, hf.declared]
    exact provides.entityType
  exact all_quoteProperties hf provides (ht.lift own) hquoted

/-- Quotes lookups one after another, lifting all their constants into one table. -/
def quoteAll (factory : ConstantFactory) :
    ConstantTable → List PointLookup → Except QueryError (List QuotedLookup × ConstantTable)
  | t, [] => .ok ([], t)
  | t, l :: rest => do
    let (q, t) ← l.quote factory t
    let (quoted, t) ← quoteAll factory t rest
    return (q :: quoted, t)

theorem exists_quoteAll (factory : ConstantFactory) :
    ∀ {lookups : List PointLookup} (t : ConstantTable), (∀ l ∈ lookups, l.MapsProperties) →
    ∃ quoted t', quoteAll factory t lookups = .ok (quoted, t')
  | [], t, _ => ⟨[], t, rfl⟩
  | l :: rest, t, h => by
    obtain ⟨q, t', hq⟩ := exists_quote factory (h l List.mem_cons_self) t
    obtain ⟨quoted, t'', hrest⟩ := exists_quoteAll factory t' fun l hl =>
      h l (List.mem_cons_of_mem _ hl)
    exact ⟨q :: quoted, t'', bind_eq_ok.2 ⟨_, hq, bind_eq_ok.2 ⟨_, hrest, rfl⟩⟩⟩

/-- **What quoting many lookups does to the table.**  Its names stay distinct, no name that was
handed out changes its entry, and nothing but constants of the lookups is added. -/
theorem quoteAll_spec (hf : factory.Faithful) :
    ∀ {lookups : List PointLookup} {quoted : List QuotedLookup} {t t' : ConstantTable},
    quoteAll factory t lookups = .ok (quoted, t') →
    (t.Distinct → t'.Distinct) ∧ t.entries ⊆ t'.entries ∧
      List.Forall₂ t'.QuotesLookup quoted lookups ∧
      ∀ P, t.All P → (∀ l ∈ lookups, l.Provides P) → t'.All P
  | [], quoted, t, t', h => by
    simp only [quoteAll, Except.ok.injEq, Prod.mk.injEq] at h
    obtain ⟨rfl, rfl⟩ := h
    exact ⟨id, fun _ => id, .nil, fun _ ht _ => ht⟩
  | l :: rest, quoted, t, t', h => by
    simp only [quoteAll, bind_eq_ok, pure_eq_ok, Prod.exists, Prod.mk.injEq] at h
    obtain ⟨q, t₁, hq, quoted', t₂, hrest, rfl, rfl⟩ := h
    obtain ⟨distinct, keeps, container, entityType, properties⟩ := quote_spec hf hq
    obtain ⟨distinct', keeps', others, all⟩ := quoteAll_spec hf hrest
    have first : t₂.QuotesLookup q l :=
      (ConstantTable.QuotesLookup.mk container entityType properties).mono keeps'
    refine ⟨distinct' ∘ distinct, fun e he => keeps' (keeps he), .cons first others, ?_⟩
    intro P ht provides
    have ht₁ := all_quote hf (provides l List.mem_cons_self) ht hq
    exact all P ht₁ fun l hl => provides l (List.mem_cons_of_mem _ hl)

end PointLookup

/-! ## 4. Compiling a lookup -/

/-- Expanding an entity fails only for what the model lacks.  The recursion is that of the
expansion. -/
theorem expandEntity_failsOnly (m : Model) (t : EntityType) (path : List String) (nullable : Bool)
    (identity : IdentityMode) (owners : List String) :
    FailsOnly IsModelError (expandEntity m t path nullable identity owners) := by
  rw [expandEntity]
  split
  · exact .error ⟨_, rfl⟩
  · refine .bind (.mapM fun k _ => t.property_failsOnly k) fun properties _ => ?_
    refine .bind (.mapM fun nav _ => ?_) fun embedded _ => .ok _
    split
    · exact .error ⟨_, rfl⟩
    · next target htarget =>
      split
      · exact .error ⟨_, rfl⟩
      · next owned =>
        have := Model.length_unowned_cons_lt (Model.mem_values_of_entityType? htarget) owned
        split
        · exact (expandEntity_failsOnly m target _ _ _ _).map
        · exact (expandEntity_failsOnly m target _ _ _ _).map
termination_by (m.unowned owners).length

/-- The error of a lookup that its quoted form does not give back. -/
def IsQuoteMismatch (e : QueryError) : Prop := ∃ name, e = .invariant (.quoteMismatch name)

theorem IsModelError.not_isQuoteMismatch {e : QueryError} (h : IsModelError e) :
    ¬ IsQuoteMismatch e := by
  obtain ⟨fault, rfl⟩ := h
  rintro ⟨name, h⟩
  exact nomatch h

namespace PointLookup

variable {l : PointLookup} {model : Model} {identity : IdentityMode}

mutual

theorem bind_not_quoteMismatch : ∀ shaper : Shaper,
    FailsOnly (fun e => ¬ IsQuoteMismatch e) (l.bind model identity shaper)
  | .binding .. => .error nofun
  | .entity .. => by
    rw [PointLookup.bind]
    refine .ite (fun _ => .error nofun) fun _ => ?_
    exact (expandEntity_failsOnly _ _ _ _ _ _).mono fun e he => he.not_isQuoteMismatch
  | .record fields => .bind (bindFields_not_quoteMismatch fields) fun _ _ => .ok _
  | .constant _ => .ok _

theorem bindFields_not_quoteMismatch : ∀ fields : List (String × Shaper),
    FailsOnly (fun e => ¬ IsQuoteMismatch e) (l.bindFields model identity fields)
  | [] => .ok _
  | (_, s) :: rest =>
    .bind (bind_not_quoteMismatch s) fun _ _ =>
      .bind (bindFields_not_quoteMismatch rest) fun _ _ => .ok _

end

theorem quoteProperties_failsOnly (factory : ConstantFactory) (l : PointLookup) :
    ∀ (original : List (String × String)) (t : ConstantTable),
    FailsOnly IsModelError (l.quoteProperties factory t original)
  | [], _ => .ok _
  | (property, _) :: rest, _ =>
    .bind (l.entityType.property_failsOnly property) fun _ _ =>
      .bind (quoteProperties_failsOnly factory l rest _) fun _ _ => .ok _

/-- In the compiling context a lookup comes back from its quoted form. -/
theorem resolve_quote {factory : ConstantFactory} (hf : factory.Faithful) {q : QuotedLookup}
    {t : ConstantTable} (h : l.quote factory .empty = .ok (q, t)) :
    q.resolve t.captured = .ok l := by
  obtain ⟨distinct, -, container, entityType, properties⟩ := quote_spec hf h
  have holds : (Model.empty.add l.entityType).entityType? l.entityType.name =
      some l.entityType := by
    rw [Model.entityType?, Model.add, Dictionary.find?_insert, if_pos rfl]
  have found := all_quote hf (provides_foundIn holds) ConstantTable.all_empty h
  exact ConstantTable.QuotesLookup.resolve (distinct ConstantTable.distinct_empty) found
    ⟨container, entityType, properties⟩ holds

end PointLookup

namespace Compiler

variable {c : Compiler} {l : PointLookup} {shaper : Shaper}

/-- A lookup is quoted and rebuilt as it was, so compiling it fails only as the check of its keys or
binding its shaper does, or for a property that its entity type does not have. -/
theorem compileLookup_failsOnly {P : QueryError → Prop} (hf : c.constantFactory.Faithful)
    (keys : FailsOnly P (checkKeys l)) (binds : FailsOnly P (l.bind c.model c.identity shaper))
    (models : ∀ fault, P (.model fault)) : FailsOnly P (c.compileLookup l shaper) := by
  refine .bind keys fun _ _ => .bind binds fun bound _ => .bind ?_ fun quoted hquoted => ?_
  · have fails : FailsOnly IsModelError (l.quote c.constantFactory .empty) :=
      .bind (l.quoteProperties_failsOnly _ _ _) fun _ _ => .ok _
    refine fails.mono ?_
    rintro e ⟨fault, rfl⟩
    exact models fault
  · obtain ⟨q, t⟩ := quoted
    have typed := PointLookup.all_quote hf l.provides_typed ConstantTable.all_empty hquoted
    obtain ⟨f, hfreeze⟩ := ConstantTable.exists_freeze_iff.2 typed
    refine .bind (by rw [PointLookup.resolve_quote hf hquoted]; exact .ok l) fun back hback => ?_
    have same : back = l :=
      Except.ok.inj (hback.symm.trans (PointLookup.resolve_quote hf hquoted))
    rw [if_neg (by simpa using same)]
    rw [hfreeze]
    exact .ok _

/-- **Compiling a lookup never finds that its quoted form is another lookup.** -/
theorem compileLookup_not_quoteMismatch (hf : c.constantFactory.Faithful) (l : PointLookup)
    (shaper : Shaper) : FailsOnly (fun e => ¬ IsQuoteMismatch e) (c.compileLookup l shaper) := by
  refine compileLookup_failsOnly hf ?_ (PointLookup.bind_not_quoteMismatch shaper) fun fault => ?_
  · unfold checkKeys
    split
    · exact .error nofun
    · exact .ok _
  · exact IsModelError.not_isQuoteMismatch ⟨fault, rfl⟩

end Compiler

/-- **Quoting round-trips.**  Lookups that map properties of their entity types, quoted one after
another into one table, can be frozen, and wherever the model holds their entity types under their
names, the frozen constants are found and every lookup is rebuilt as it was.  So compiling a lookup
never finds a quoted form that is another lookup. -/
theorem quotes_round_trip {factory : ConstantFactory} (hf : factory.Faithful) :
    (∀ lookups : List PointLookup, (∀ l ∈ lookups, l.MapsProperties) →
      ∃ quoted t f, PointLookup.quoteAll factory .empty lookups = .ok (quoted, t) ∧
        t.freeze = .ok f ∧
        ∀ model : Model, (∀ l ∈ lookups,
          model.entityType? l.entityType.name = some l.entityType) →
          ∃ r, f.resolve model = .ok r ∧ quoted.mapM (·.resolve r) = .ok lookups) ∧
    ∀ c : Compiler, c.constantFactory = factory → ∀ (l : PointLookup) (shaper : Shaper)
      (name : String), c.compileLookup l shaper ≠ .error (.invariant (.quoteMismatch name)) := by
  constructor
  · intro lookups maps
    obtain ⟨quoted, t, hquoted⟩ := PointLookup.exists_quoteAll factory .empty maps
    obtain ⟨distinct, -, quotes, all⟩ := PointLookup.quoteAll_spec hf hquoted
    have typed := all _ ConstantTable.all_empty fun l _ => l.provides_typed
    obtain ⟨f, hfreeze⟩ := ConstantTable.exists_freeze_iff.2 typed
    refine ⟨quoted, t, f, hquoted, hfreeze, fun model holds => ?_⟩
    have found := all _ ConstantTable.all_empty fun l hl =>
      PointLookup.provides_foundIn (holds l hl)
    refine ⟨t.captured, ConstantTable.resolve_freeze typed found hfreeze, ?_⟩
    have distinct := distinct ConstantTable.distinct_empty
    clear hquoted all
    induction quotes with
    | nil => rfl
    | @cons q l quoted lookups hq _ ih =>
      refine mapM_cons_eq_ok.2 ⟨l, lookups, ?_, ?_, rfl⟩
      · exact hq.resolve distinct found (holds l List.mem_cons_self)
      · exact ih (fun l hl => maps l (List.mem_cons_of_mem _ hl))
          fun l hl => holds l (List.mem_cons_of_mem _ hl)
  · intro c hc l shaper name h
    exact Compiler.compileLookup_not_quoteMismatch (hc ▸ hf) l shaper _ h ⟨name, rfl⟩

/-- Orders and their lines; both have a property `Id`. -/
def orderType : EntityType :=
  ⟨"Order", "orders", [⟨"Id", .int32, false, "id", none⟩], ["Id"], none, []⟩

def lineType : EntityType :=
  ⟨"Line", "orders", [⟨"Id", .int32, false, "id", none⟩, ⟨"No", .int64, false, "no", none⟩],
    ["Id", "No"], none, []⟩

/-- A lookup by order, one by line, and a second one by order with another parameter. -/
def orderLookups : List PointLookup :=
  [⟨"orders", orderType, .ofList [("Id", "order")]⟩,
    ⟨"orders", lineType, .ofList [("Id", "order"), ("No", "number")]⟩,
    ⟨"orders", orderType, .ofList [("Id", "other")]⟩]

/-- The two properties `Id` get different constants, and the third lookup adds none. -/
theorem quotes_round_trip_orders :
    ∃ quoted t f r, PointLookup.quoteAll id .empty orderLookups = .ok (quoted, t) ∧
      t.freeze = .ok f ∧
      f.names = ["OrderEntityType", "IdProperty", "LineEntityType", "IdProperty_1", "NoProperty"] ∧
      f.resolve (.ofList [lineType, orderType]) = .ok r ∧
      quoted.mapM (·.resolve r) = .ok orderLookups := by
  have maps : ∀ l ∈ orderLookups, l.MapsProperties := by
    simp only [PointLookup.MapsProperties]
    decide
  have holds : ∀ l ∈ orderLookups,
      (Model.ofList [lineType, orderType]).entityType? l.entityType.name = some l.entityType := by
    decide
  obtain ⟨quoted, t, f, hquoted, hfreeze, resolves⟩ :=
    (quotes_round_trip ConstantFactory.faithful_id).1 orderLookups maps
  obtain ⟨r, hr, rebuilt⟩ := resolves _ holds
  refine ⟨quoted, t, f, r, hquoted, hfreeze, ?_, hr, rebuilt⟩
  cases hquoted
  cases hfreeze
  rfl

end DocQuery
