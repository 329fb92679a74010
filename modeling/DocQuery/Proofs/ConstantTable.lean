/-
# Constants keep their names and types

A plan refers to its constants by name, and the names are handed out while the plan is being
made.  The names in a constant table are distinct, however many constants ask for one name,
because of the candidates for a name there is always one that no entry has
(`ConstantTable.exists_free`): there are more of them than entries.

* A name that was handed out stays with its entry while the table grows, and a constant is found
  under the name that lifting gave it (`ConstantTable.Lifts`).
* Freezing keeps names and resolutions.  So after freezing and resolving, each name stands for the
  value that its resolution finds (`FrozenConstants.find?_resolve`), at the type it was declared
  with.
* Resolving fails only where the model lacks something (`FrozenConstants.resolve_failsOnly`).

Quoting a lookup is a sequence of lifts (`PointLookup.quote_spec`).  The factory that makes the
constants may name them as it likes; of it is assumed that it makes the constants it is asked for
(`ConstantFactory.Faithful`).
-/
import DocQuery.Proofs.JsonText
import DocQuery.Proofs.Outcome
import DocQuery.QuotedLookup

namespace DocQuery

/-! ## 1. Free names -/

namespace ConstantTable

variable {t : ConstantTable}

theorem toString_injective {m n : Nat} (h : toString m = toString n) : m = n :=
  Layout.digitsOf_injective (String.ofList_injective h)

/-- The candidates for a name differ from each other. -/
theorem nodup_candidates (t : ConstantTable) (name : String) : (t.candidates name).Nodup := by
  refine List.nodup_cons.2 ⟨fun h => ?_, List.pairwise_map.2 ?_⟩
  · obtain ⟨i, -, hi⟩ := List.mem_map.1 h
    have hlength := congrArg String.length hi
    simp only [String.length_append] at hlength
    have : ("_" : String).length = 1 := rfl
    omega
  · refine List.nodup_range.imp fun {i j} hne heq => hne ?_
    have htoString : toString (i + 1) = toString (j + 1) := by
      have hlist := congrArg String.toList heq
      simp only [String.toList_append] at hlist
      exact String.toList_inj.1 (List.append_cancel_left hlist)
    have := toString_injective htoString
    omega

/-- One of the candidates is free, because there are more of them than entries. -/
theorem exists_free (t : ConstantTable) (name : String) :
    ∃ n ∈ t.candidates name, t.isTaken n = false := by
  refine Classical.byContradiction fun none => ?_
  have taken : t.candidates name ⊆ t.entries.map (·.name) := by
    intro n hn
    have hn : t.isTaken n = true := by
      cases h : t.isTaken n with
      | true => rfl
      | false => exact absurd ⟨n, hn, h⟩ none
    obtain ⟨e, he, hname⟩ := List.any_eq_true.1 hn
    exact List.mem_map.2 ⟨e, he, beq_iff_eq.1 hname⟩
  have hlength := (t.nodup_candidates name).length_le_of_subset taken
  simp only [candidates, List.length_cons, List.length_map, List.length_range] at hlength
  omega

theorem isTaken_freeName (t : ConstantTable) (name : String) :
    t.isTaken (t.freeName name) = false := by
  unfold freeName
  cases h : (t.candidates name).find? fun n => !t.isTaken n with
  | some n => simpa using List.find?_some h
  | none =>
    obtain ⟨n, hn, hfree⟩ := t.exists_free name
    have := List.find?_eq_none.1 h n hn
    rw [hfree] at this
    exact absurd rfl this

/-! ## 2. Lifting -/

/-- The names of a table are distinct. -/
def Distinct (t : ConstantTable) : Prop := (t.entries.map (·.name)).Nodup

theorem distinct_empty : Distinct empty := List.nodup_nil

/-- The table has an entry under this name with this resolution and type. -/
def Has (t : ConstantTable) (name : String) (resolution : Resolution) (declared : ConstantType) :
    Prop :=
  ∃ e ∈ t.entries, e.name = name ∧ e.resolution = resolution ∧ e.declared = declared

/-- What lifting does: no name changes its entry, and the constant is found under its name. -/
structure Lifts (t : ConstantTable) (c : LiftedConstant) (name : String) (t' : ConstantTable) :
    Prop where
  distinct : t.Distinct → t'.Distinct
  keeps : t.entries ⊆ t'.entries
  has : t'.Has name c.resolution c.declared

theorem lifts_lift (t : ConstantTable) (c : LiftedConstant) :
    Lifts t c (t.lift c).1 (t.lift c).2 := by
  unfold lift
  split
  · next e he =>
    have same := List.find?_some he
    simp only [Bool.and_eq_true, beq_iff_eq] at same
    exact ⟨id, fun _ => id, e, List.mem_of_find?_eq_some he, rfl, same.1, same.2⟩
  · refine ⟨?_, fun _ => List.mem_append_left _, _,
      List.mem_append_right _ List.mem_cons_self, rfl, rfl, rfl⟩
    intro h
    simp only [Distinct, List.map_append, List.map_cons, List.map_nil]
    refine List.nodup_append.2 ⟨h, List.nodup_cons.2 ⟨List.not_mem_nil, List.nodup_nil⟩, ?_⟩
    intro n hn m hm heq
    have hfree : n = t.freeName c.name := heq.trans (List.mem_singleton.1 hm)
    obtain ⟨e, he, hname⟩ := List.mem_map.1 hn
    have taken : t.isTaken (t.freeName c.name) = true :=
      List.any_eq_true.2 ⟨e, he, beq_iff_eq.2 (hname.trans hfree)⟩
    rw [t.isTaken_freeName c.name] at taken
    exact nomatch taken

theorem Has.mono {t' : ConstantTable} {name : String} {resolution : Resolution}
    {declared : ConstantType} (h : t.Has name resolution declared) (hsub : t.entries ⊆ t'.entries) :
    t'.Has name resolution declared := by
  obtain ⟨e, he, hspec⟩ := h
  exact ⟨e, hsub he, hspec⟩

end ConstantTable

/-! ## 3. Freezing and resolving -/

theorem Resolution.type_of_resolve {model : Model} {r : Resolution} {v : ConstantValue}
    (h : r.resolve model = .ok v) : v.type = r.type := by
  cases r with
  | sqlGeneratorFactory | sqlExpressionFactory => rw [← Except.ok.inj h]; rfl
  | entityType name =>
    obtain ⟨t, -, rfl⟩ := map_eq_ok.1 h
    rfl
  | property owner name =>
    simp only [resolve, bind_eq_ok, pure_eq_ok] at h
    obtain ⟨t, -, p, -, rfl⟩ := h
    rfl

/-- The errors of a model that lacks something. -/
def IsModelError (e : QueryError) : Prop := ∃ fault, e = .model fault

theorem Model.entityType_failsOnly (m : Model) (name : String) :
    FailsOnly IsModelError (m.entityType name) := by
  unfold entityType
  split
  · exact .ok _
  · exact .error ⟨_, rfl⟩

theorem EntityType.property_failsOnly (t : EntityType) (name : String) :
    FailsOnly IsModelError (t.property name) := by
  unfold property
  split
  · exact .ok _
  · exact .error ⟨_, rfl⟩

theorem Resolution.resolve_failsOnly (model : Model) (r : Resolution) :
    FailsOnly IsModelError (r.resolve model) := by
  cases r with
  | sqlGeneratorFactory | sqlExpressionFactory => exact .ok _
  | entityType name => exact (model.entityType_failsOnly name).map
  | property owner name =>
    exact (model.entityType_failsOnly owner).bind fun t _ =>
      (t.property_failsOnly name).bind fun p _ => .ok _

namespace FrozenConstants

/-- The names are distinct and every slot declares the type that its resolution finds. -/
structure WellFormed (f : FrozenConstants) : Prop where
  distinct : (f.slots.map (·.name)).Nodup
  typed : ∀ s ∈ f.slots, s.resolution.type = s.declared

/-- The frozen table has a slot under this name with this resolution. -/
def Has (f : FrozenConstants) (name : String) (resolution : Resolution) : Prop :=
  ∃ s ∈ f.slots, s.name = name ∧ s.resolution = resolution

end FrozenConstants

theorem LiftedConstant.freeze_eq_ok {c : LiftedConstant} {s : ConstantSlot} (h : c.freeze = .ok s) :
    s = ⟨c.name, c.resolution, c.declared⟩ ∧ c.resolution.type = c.declared := by
  unfold freeze at h
  split at h
  · exact nomatch h
  · next htype =>
    split at h
    · exact nomatch h
    · exact ⟨(Except.ok.inj h).symm, Decidable.not_not.1 htype⟩

namespace ConstantTable

variable {t : ConstantTable} {f : FrozenConstants}

theorem slots_of_freeze (h : t.freeze = .ok f) :
    f.slots = t.entries.map fun e => ⟨e.name, e.resolution, e.declared⟩ := by
  obtain ⟨slots, hslots, rfl⟩ := map_eq_ok.1 h
  exact eq_map_of_mapM (fun e _ s hs => (LiftedConstant.freeze_eq_ok hs).1) hslots

theorem wellFormed_of_freeze (ht : t.Distinct) (h : t.freeze = .ok f) : f.WellFormed where
  distinct := by
    rw [slots_of_freeze h, List.map_map]
    exact ht
  typed := by
    obtain ⟨slots, hslots, rfl⟩ := map_eq_ok.1 h
    intro s hs
    obtain ⟨e, -, he⟩ := mem_of_mapM_eq_ok hslots s hs
    obtain ⟨rfl, htype⟩ := LiftedConstant.freeze_eq_ok he
    exact htype

theorem Has.frozen {name : String} {resolution : Resolution} {declared : ConstantType}
    (has : t.Has name resolution declared) (h : t.freeze = .ok f) : f.Has name resolution := by
  obtain ⟨e, he, hname, hresolution, -⟩ := has
  refine ⟨⟨e.name, e.resolution, e.declared⟩, ?_, hname, hresolution⟩
  rw [slots_of_freeze h]
  exact List.mem_map.2 ⟨e, he, rfl⟩

end ConstantTable

namespace FrozenConstants

variable {f : FrozenConstants} {model : Model} {r : ResolvedConstants}

theorem resolve_failsOnly (h : f.WellFormed) (model : Model) :
    FailsOnly IsModelError (f.resolve model) := by
  refine .map (.mapM fun s hs => .bind (s.resolution.resolve_failsOnly model) fun v hv => ?_)
  have htype : v.type = s.declared := (Resolution.type_of_resolve hv).trans (h.typed s hs)
  rw [if_neg (by simp [htype])]
  exact .ok _

/-- **Each name stands for what its resolution finds.** -/
theorem find?_resolve (h : f.WellFormed) (hr : f.resolve model = .ok r) {name : String}
    {resolution : Resolution} (has : f.Has name resolution) :
    ∃ v, resolution.resolve model = .ok v ∧ r.find? name = some v := by
  obtain ⟨s, hs, rfl, rfl⟩ := has
  obtain ⟨entries, hentries, rfl⟩ := map_eq_ok.1 hr
  have resolved : ∀ s e, ConstantSlot.resolve model s = .ok e →
      e.1 = s.name ∧ s.resolution.resolve model = .ok e.2 := by
    intro s e he
    obtain ⟨v, hv, he⟩ := bind_eq_ok.1 he
    split at he
    · exact nomatch he
    · rw [← Except.ok.inj he]
      exact ⟨rfl, hv⟩
  have names : entries.map Prod.fst = f.slots.map (·.name) :=
    map_of_mapM (fun s _ e he => (resolved s e he).1) hentries
  obtain ⟨e, he, hse⟩ := mapM_eq_ok_of_mem hentries s hs
  obtain ⟨hname, hvalue⟩ := resolved s e hse
  refine ⟨e.2, hvalue, ?_⟩
  exact Dictionary.find?_ofList_of_mem (names ▸ h.distinct) (hname ▸ he)

end FrozenConstants

/-! ## 4. Quoted lookups -/

namespace ConstantTable

/-- The quoted properties name the constants of these properties of an entity type, each with the
parameter of the original. -/
def Quotes (t : ConstantTable) (owner : String) :
    List (String × String) → List (String × String) → Prop
  | [], [] => True
  | (name, parameter) :: quoted, (property, parameter') :: original =>
    parameter = parameter' ∧ t.Has name (.property owner property) .property ∧
      t.Quotes owner quoted original
  | _, _ => False

theorem Quotes.has {t : ConstantTable} {owner : String} :
    ∀ {quoted original : List (String × String)}, t.Quotes owner quoted original →
    ∀ e ∈ quoted, ∃ property, t.Has e.1 (.property owner property) .property
  | [], [], _, _, he => absurd he List.not_mem_nil
  | (name, _) :: quoted, (property, _) :: original, h, e, he => by
    obtain ⟨-, has, rest⟩ := h
    rcases List.mem_cons.1 he with rfl | he
    · exact ⟨property, has⟩
    · exact Quotes.has rest e he

end ConstantTable

/-- A factory that makes the constants it is asked for; it may name them as it likes. -/
structure ConstantFactory.Faithful (factory : ConstantFactory) : Prop where
  captured : ∀ c, (factory c).captured = c.captured
  resolution : ∀ c, (factory c).resolution = c.resolution
  declared : ∀ c, (factory c).declared = c.declared

theorem ConstantFactory.faithful_id : Faithful id := ⟨fun _ => rfl, fun _ => rfl, fun _ => rfl⟩

namespace PointLookup

/-- Quoting the properties of a lookup extends the table by their constants. -/
theorem quoteProperties_spec (l : PointLookup) {factory : ConstantFactory}
    (hf : factory.Faithful) :
    ∀ {original : List (String × String)} {t t' : ConstantTable} {quoted : List (String × String)},
    l.quoteProperties factory t original = .ok (quoted, t') →
    (t.Distinct → t'.Distinct) ∧ t.entries ⊆ t'.entries ∧
      t'.Quotes l.entityType.name quoted original
  | [], t, t', quoted, h => by
    simp only [quoteProperties, Except.ok.injEq, Prod.mk.injEq] at h
    obtain ⟨rfl, rfl⟩ := h
    exact ⟨id, fun _ => id, trivial⟩
  | (property, parameter) :: rest, t, t', quoted, h => by
    simp only [quoteProperties, bind_eq_ok, pure_eq_ok, Prod.exists, Prod.mk.injEq] at h
    obtain ⟨p, hp, quoted', t'', hrest, rfl, rfl⟩ := h
    have lifts := t.lifts_lift (factory (l.propertyConstant p))
    obtain ⟨distinct, keeps, quotes⟩ := l.quoteProperties_spec hf hrest
    have has : ConstantTable.Has t'' (t.lift (factory (l.propertyConstant p))).1
        (.property l.entityType.name property) .property := by
      have named := lifts.has
      rw [hf.resolution, hf.declared] at named
      rw [← (EntityType.property_eq_ok hp).2]
      exact named.mono keeps
    exact ⟨distinct ∘ lifts.distinct, fun e he => keeps (lifts.keeps he), rfl, has, quotes⟩

/-- Quoting a lookup extends the table by the constants of its entity type and its properties. -/
theorem quote_spec {l : PointLookup} {factory : ConstantFactory} (hf : factory.Faithful)
    {t t' : ConstantTable} {q : QuotedLookup} (h : l.quote factory t = .ok (q, t')) :
    (t.Distinct → t'.Distinct) ∧ t.entries ⊆ t'.entries ∧ q.container = l.container ∧
      t'.Has q.entityType (.entityType l.entityType.name) .entityType ∧
      t'.Quotes l.entityType.name q.propertyParameters l.propertyParameters.entries := by
  simp only [quote, bind_eq_ok, pure_eq_ok, Prod.exists, Prod.mk.injEq] at h
  obtain ⟨quoted, t'', hquoted, rfl, rfl⟩ := h
  have lifts := t.lifts_lift (factory l.entityTypeConstant)
  have has := lifts.has
  rw [hf.resolution, hf.declared] at has
  obtain ⟨distinct, keeps, quotes⟩ := l.quoteProperties_spec hf hquoted
  exact ⟨distinct ∘ lifts.distinct, fun e he => keeps (lifts.keeps he), rfl, has.mono keeps, quotes⟩

end PointLookup

namespace ResolvedConstants

variable {r : ResolvedConstants} {name : String} {v : ConstantValue}

theorem entityType_of_find? (h : r.find? name = some v) (htype : v.type = .entityType) :
    ∃ t, v = .entityType t ∧ r.entityType name = .ok t := by
  cases v with
  | entityType t =>
    refine ⟨t, rfl, ?_⟩
    simp [entityType, getAs, get, h, bind, Except.bind]
  | _ => exact nomatch htype

theorem property_of_find? (h : r.find? name = some v) (htype : v.type = .property) :
    ∃ p, v = .property p ∧ r.property name = .ok p := by
  cases v with
  | property p =>
    refine ⟨p, rfl, ?_⟩
    simp [property, getAs, get, h, bind, Except.bind]
  | _ => exact nomatch htype

end ResolvedConstants

/-- A quoted lookup is rebuilt wherever its constants are found. -/
theorem QuotedLookup.exists_resolve {q : QuotedLookup} {f : FrozenConstants} {model : Model}
    {r : ResolvedConstants} (h : f.WellFormed) (hr : f.resolve model = .ok r)
    (hentity : ∃ name, f.Has q.entityType (.entityType name))
    (hproperties : ∀ e ∈ q.propertyParameters, ∃ owner name, f.Has e.1 (.property owner name)) :
    ∃ l, q.resolve r = .ok l := by
  obtain ⟨name, has⟩ := hentity
  obtain ⟨v, hv, hfind⟩ := FrozenConstants.find?_resolve h hr has
  obtain ⟨t, -, ht⟩ := ResolvedConstants.entityType_of_find? hfind (Resolution.type_of_resolve hv)
  have properties : ∃ ps, q.propertyParameters.mapM (fun e => do
      return ((← r.property e.1).name, e.2)) = .ok ps := by
    refine exists_mapM fun e he => ?_
    obtain ⟨owner, name, has⟩ := hproperties e he
    obtain ⟨v, hv, hfind⟩ := FrozenConstants.find?_resolve h hr has
    obtain ⟨p, -, hp⟩ := ResolvedConstants.property_of_find? hfind (Resolution.type_of_resolve hv)
    exact ⟨(p.name, e.2), by simp only [hp]; rfl⟩
  obtain ⟨ps, hps⟩ := properties
  refine ⟨⟨q.container, t, .ofList ps⟩, ?_⟩
  simp only [resolve, bind_eq_ok, pure_eq_ok]
  exact ⟨t, ht, ps, hps, rfl⟩

end DocQuery
