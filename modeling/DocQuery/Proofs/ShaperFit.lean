/-
# Shapers that fit their rows

A row shaper fits a kind of rows when every access in it can be made there: paths in documents,
positions below the width in value lists, entities in documents only and with their key among the
properties they list.

* Binding a shaper gives one that fits the rows of its query (`SelectBinding.fits_bind`,
  `PointLookup.fits_bind`).  For entities that is an induction along their expansion, in which
  each owned type leaves fewer types that are not owned yet.
* A shaper that fits never goes wrong (`RowShaper.shapeRow_failsOnly`).  What goes wrong otherwise
  is listed in `MaterializeFault.IsMisfit`; what is left are the faults of values.

Nothing is said of the rows but their width, so a shaper that fits may still be given a row whose
values are not what it declares.
-/
import DocQuery.Binding
import DocQuery.Proofs.Outcome

namespace DocQuery

/-! ## 1. Fitting -/

/-- The kind of a row: documents have no width, value lists have their length. -/
def Row.width : Row → Option Nat
  | .document _ => none
  | .ordinal values => some values.length

/-- The width of the rows of a select with so many projections. -/
def RowLayout.width (layout : RowLayout) (projections : Nat) : Option Nat :=
  match layout with
  | .document => none
  | .ordinal => some projections

namespace ValueAccess

/-- The access can be made in rows of this width. -/
def Fits (width : Option Nat) : ValueAccess → Prop
  | .path _ => width = none
  | .ordinal index => ∃ n, width = some n ∧ index < n

end ValueAccess

/-- The key of an entity is among the properties it reads. -/
def EntityRead.KeyListed (r : EntityRead) : Prop := ∀ k ∈ r.key, ∃ p ∈ r.properties, p.name = k

namespace RowShaper

mutual

/-- The shaper fits rows of this width. -/
def Fits (width : Option Nat) : RowShaper → Prop
  | .read access _ _ => access.Fits width
  | .entity info embedded => width = none ∧ info.KeyListed ∧ FieldsFit none embedded
  | .collection _ element => element.Fits none
  | .record fields => FieldsFit width fields
  | .constant _ => True

def FieldsFit (width : Option Nat) : List (String × RowShaper) → Prop
  | [] => True
  | (_, s) :: rest => s.Fits width ∧ FieldsFit width rest

end

theorem fieldsFit_of_forall {width : Option Nat} : ∀ {fields : List (String × RowShaper)},
    (∀ f ∈ fields, f.2.Fits width) → FieldsFit width fields
  | [], _ => by rw [FieldsFit]; trivial
  | (_, s) :: rest, h => by
    rw [FieldsFit]
    exact ⟨h _ List.mem_cons_self,
      fieldsFit_of_forall fun f hf => h f (List.mem_cons_of_mem _ hf)⟩

end RowShaper

/-! ## 2. Bound shapers fit -/

/-- An expanded entity fits documents.  The recursion is that of the expansion: each owned type
leaves fewer types that are not owned yet. -/
theorem fits_expandEntity {m : Model} {t : EntityType} {path : List String} {nullable : Bool}
    {identity : IdentityMode} {owners : List String} {s : RowShaper}
    (h : expandEntity m t path nullable identity owners = .ok s) : s.Fits none := by
  rw [expandEntity] at h
  split at h
  · cases h
  · simp only [bind_eq_ok, pure_eq_ok] at h
    obtain ⟨ps, hps, embedded, hembedded, rfl⟩ := h
    rw [RowShaper.Fits]
    refine ⟨rfl, ?_, RowShaper.fieldsFit_of_forall ?_⟩
    · intro k hk
      obtain ⟨p, -, hproperty⟩ := mapM_eq_ok_of_mem hps k hk
      obtain ⟨hp, hname⟩ := EntityType.property_eq_ok hproperty
      exact ⟨.ofProperty p, List.mem_map_of_mem hp, hname⟩
    · intro f hf
      obtain ⟨nav, -, hnav⟩ := mem_of_mapM_eq_ok hembedded f hf
      split at hnav
      · cases hnav
      · next target htarget =>
        split at hnav
        · cases hnav
        · next owned =>
          have := Model.length_unowned_cons_lt (Model.mem_values_of_entityType? htarget) owned
          split at hnav
          · obtain ⟨s, hs, rfl⟩ := map_eq_ok.1 hnav
            rw [RowShaper.Fits]
            exact fits_expandEntity hs
          · obtain ⟨s, hs, rfl⟩ := map_eq_ok.1 hnav
            exact fits_expandEntity hs
termination_by (m.unowned owners).length

theorem Model.fits_entityShaper {m : Model} {t : EntityType} {path : List String} {nullable : Bool}
    {identity : IdentityMode} {s : RowShaper}
    (h : m.entityShaper t path nullable identity = .ok s) : s.Fits none := fits_expandEntity h

namespace SelectBinding

/-- The width of the rows of the select. -/
def width (b : SelectBinding) : Option Nat := b.layout.width b.select.projection.length

variable {b : SelectBinding}

theorem fits_bindScalar {index : Nat} {type : DataType} {nullable : Bool} {s : RowShaper}
    (h : b.bindScalar index type nullable = .ok s) : s.Fits b.width := by
  obtain ⟨p, hp, h⟩ := bind_eq_ok.1 h
  split at h
  · exact nomatch h
  · rw [← pure_eq_ok.1 h, RowShaper.Fits, width]
    unfold projection at hp
    split at hp
    · next q hq =>
      cases b.layout with
      | document => rfl
      | ordinal => exact ⟨_, rfl, (List.getElem?_eq_some_iff.1 hq).1⟩
    · exact nomatch hp

/-- An entity is bound where one of its type is projected and rows are documents. -/
theorem bindEntity_eq_ok {entityType : String} {index : Nat} {nullable : Bool} {s : RowShaper} :
    b.bindEntity entityType index nullable = .ok s ↔ ∃ p path t, b.projection index = .ok p ∧
      p.item = .entity entityType path ∧ b.layout ≠ .ordinal ∧
      b.model.entityType entityType = .ok t ∧
      b.model.entityShaper t (b.basePath p) nullable b.identity = .ok s := by
  rw [bindEntity]
  constructor
  · intro h
    obtain ⟨p, hp, h⟩ := bind_eq_ok.1 h
    split at h
    · cases h
    · next projected path hitem =>
      obtain ⟨named, h⟩ := unless_eq_ok.1 h
      obtain ⟨layout, h⟩ := unless_eq_ok.1 h
      obtain ⟨t, ht, h⟩ := bind_eq_ok.1 h
      exact ⟨p, path, t, hp, Decidable.not_not.1 named ▸ hitem, layout, ht, h⟩
  · rintro ⟨p, path, t, hp, hitem, layout, ht, h⟩
    refine bind_eq_ok.2 ⟨p, hp, ?_⟩
    rw [hitem]
    refine unless_eq_ok.2 ⟨Decidable.not_not.2 rfl, unless_eq_ok.2 ⟨layout, ?_⟩⟩
    exact bind_eq_ok.2 ⟨t, ht, h⟩

theorem fits_bindEntity {entityType : String} {index : Nat} {nullable : Bool} {s : RowShaper}
    (h : b.bindEntity entityType index nullable = .ok s) : s.Fits b.width := by
  obtain ⟨p, path, t, -, -, layout, -, h⟩ := bindEntity_eq_ok.1 h
  have hwidth : b.width = none := by
    rw [width]
    cases hl : b.layout with
    | document => rfl
    | ordinal => exact absurd hl layout
  rw [hwidth]
  exact Model.fits_entityShaper h

mutual

/-- **A shaper bound to a select fits its rows.** -/
theorem fits_bind : ∀ (shaper : Shaper) {s : RowShaper}, b.bind shaper = .ok s → s.Fits b.width
  | .binding index type nullable, s, h => fits_bindScalar h
  | .entity entityType index nullable, s, h => fits_bindEntity h
  | .record fields, s, h => by
    obtain ⟨fs, hfs, h⟩ := bind_eq_ok.1 h
    rw [← pure_eq_ok.1 h, RowShaper.Fits]
    exact fits_bindFields fields hfs
  | .constant v, s, h => by
    rw [← Except.ok.inj h, RowShaper.Fits]
    trivial

theorem fits_bindFields : ∀ (fields : List (String × Shaper)) {fs : List (String × RowShaper)},
    b.bindFields fields = .ok fs → RowShaper.FieldsFit b.width fs
  | [], fs, h => by
    rw [← Except.ok.inj h, RowShaper.FieldsFit]
    trivial
  | (name, shaper) :: rest, fs, h => by
    obtain ⟨first, hfirst, h⟩ := bind_eq_ok.1 h
    obtain ⟨others, hothers, h⟩ := bind_eq_ok.1 h
    rw [← pure_eq_ok.1 h, RowShaper.FieldsFit]
    exact ⟨fits_bind shaper hfirst, fits_bindFields rest hothers⟩

end

end SelectBinding

namespace PointLookup

variable {l : PointLookup} {model : Model} {identity : IdentityMode}

mutual

/-- **A shaper bound to a lookup fits documents**, whatever the layout of other rows. -/
theorem fits_bind : ∀ (shaper : Shaper) {s : RowShaper}, l.bind model identity shaper = .ok s →
    s.Fits none
  | .binding index type nullable, s, h => nomatch h
  | .entity entityType index nullable, s, h => by
    rw [PointLookup.bind] at h
    split at h
    · exact nomatch h
    · exact Model.fits_entityShaper h
  | .record fields, s, h => by
    obtain ⟨fs, hfs, h⟩ := bind_eq_ok.1 h
    rw [← pure_eq_ok.1 h, RowShaper.Fits]
    exact fits_bindFields fields hfs
  | .constant v, s, h => by
    rw [← Except.ok.inj h, RowShaper.Fits]
    trivial

theorem fits_bindFields : ∀ (fields : List (String × Shaper)) {fs : List (String × RowShaper)},
    l.bindFields model identity fields = .ok fs → RowShaper.FieldsFit none fs
  | [], fs, h => by
    rw [← Except.ok.inj h, RowShaper.FieldsFit]
    trivial
  | (name, shaper) :: rest, fs, h => by
    obtain ⟨first, hfirst, h⟩ := bind_eq_ok.1 h
    obtain ⟨others, hothers, h⟩ := bind_eq_ok.1 h
    rw [← pure_eq_ok.1 h, RowShaper.FieldsFit]
    exact ⟨fits_bind shaper hfirst, fits_bindFields rest hothers⟩

end

end PointLookup

/-! ## 3. Fitting shapers do not go wrong -/

/-- The faults that a fitting shaper does not have: an access that does not suit the row, an entity
in a row of values, a property that is not listed. -/
inductive MaterializeFault.IsMisfit : MaterializeFault → Prop where
  | noOrdinal (index : Nat) : IsMisfit (.noOrdinal index)
  | layoutMismatch (access : ValueAccess) : IsMisfit (.layoutMismatch access)
  | entityFromOrdinals : IsMisfit .entityFromOrdinals
  | unknownProperty (entityType property : String) : IsMisfit (.unknownProperty entityType property)

/-- An error of a value in a row. -/
def IsValueError (e : RunError) : Prop := ∃ fault, e = .materialize fault ∧ ¬ fault.IsMisfit

theorem isValueError {fault : MaterializeFault} (h : ¬ fault.IsMisfit) :
    IsValueError (.materialize fault) := ⟨fault, rfl, h⟩

theorem readValue_failsOnly (type : DataType) (nullable : Bool) (node : Json) :
    FailsOnly IsValueError (readValue type nullable node) := by
  unfold readValue
  split
  · exact .error (isValueError nofun)
  · exact .ite (fun _ => .error (isValueError nofun)) fun _ => .ok _

theorem ValueAccess.node_failsOnly {access : ValueAccess} {ordinals : Option (List Json)}
    (h : access.Fits (ordinals.map List.length)) (node : Json) :
    FailsOnly IsValueError (access.node node ordinals) := by
  cases access with
  | path names =>
    cases ordinals with
    | none => exact .ok _
    | some values => exact nomatch h
  | ordinal index =>
    obtain ⟨n, hwidth, hlt⟩ := h
    cases ordinals with
    | none => exact nomatch hwidth
    | some values =>
      have hlt : index < values.length := by
        rw [Option.map_some, Option.some.injEq] at hwidth
        omega
      have hnode : ValueAccess.node (.ordinal index) node (some values) = .ok values[index] := by
        simp only [ValueAccess.node, List.getElem?_eq_getElem hlt]
      rw [hnode]
      exact .ok _

namespace EntityRead

theorem readProperty_failsOnly {r : EntityRead} {name : String}
    (h : ∃ p ∈ r.properties, p.name = name) (node : Json) :
    FailsOnly IsValueError (r.readProperty node name) := by
  unfold readProperty
  split
  · next hnone =>
    obtain ⟨p, hp, hname⟩ := h
    exact absurd (beq_iff_eq.2 hname) (List.find?_eq_none.1 hnone p hp)
  · dsimp only
    split
    · exact .error (isValueError nofun)
    · exact .ite (fun _ => .error (isValueError nofun)) fun _ => .ok _

theorem readProperties_failsOnly (r : EntityRead) (node : Json) :
    FailsOnly IsValueError (r.readProperties node) := by
  refine .bind (.mapM fun p hp => .bind ?_ fun v _ => .ok _) fun values _ => .ok _
  exact readProperty_failsOnly ⟨p, hp, rfl⟩ node

end EntityRead

namespace Shaping

theorem findEntity_failsOnly {P : RunError → Prop} (mode : IdentityMode) (entityType : String)
    (key : List Scalar) : FailsOnly P (findEntity mode entityType key) :=
  fun _ => .ok _

theorem recordEntity_failsOnly {P : RunError → Prop} (mode : IdentityMode) (entityType : String)
    (key : List Scalar) (entity : Item) :
    FailsOnly P (recordEntity mode entityType key entity) := by
  intro s
  unfold recordEntity
  have hget : (get : Shaping ShapingState).run s = (.ok s, s) := rfl
  rw [run_bind, hget]
  dsimp only
  split <;> exact .ok _

theorem freshId_failsOnly {P : RunError → Prop} : FailsOnly P freshId := fun _ => .ok _

end Shaping

namespace RowShaper

variable {info : EntityRead} {embedded : List (String × RowShaper)}

theorem makeEntity_failsOnly
    (h : ∀ node, Shaping.FailsOnly IsValueError (shapeFields none node embedded)) (node : Json) :
    Shaping.FailsOnly IsValueError (makeEntity info node embedded) := by
  rw [makeEntity]
  refine .bind (.ofExcept (info.readProperties_failsOnly node)) fun values => ?_
  refine .bind (h node) fun fields => ?_
  exact .bind Shaping.freshId_failsOnly fun id => .pure _

theorem shapeEntity_failsOnly (hkey : info.KeyListed)
    (h : ∀ node, Shaping.FailsOnly IsValueError (shapeFields none node embedded)) (node : Json) :
    Shaping.FailsOnly IsValueError (shapeEntity info node embedded) := by
  rw [shapeEntity]
  split
  · split
    · exact .pure _
    · have missing : ¬ (MaterializeFault.missingEntity info.entityType).IsMisfit := by
        rintro ⟨⟩
      exact .fail (isValueError missing)
  · split
    · exact makeEntity_failsOnly h node
    · refine .bind (.ofExcept (.mapM fun k hk =>
        EntityRead.readProperty_failsOnly (hkey k hk) node)) fun key => ?_
      refine .bind (Shaping.findEntity_failsOnly _ _ _) fun existing => ?_
      split
      · exact .pure _
      · refine .bind (makeEntity_failsOnly h node) fun entity => ?_
        exact Shaping.recordEntity_failsOnly _ _ _ _

mutual

theorem shapeNode_failsOnly : ∀ (s : RowShaper) (ordinals : Option (List Json)),
    s.Fits (ordinals.map List.length) → ∀ node,
    Shaping.FailsOnly IsValueError (s.shapeNode ordinals node)
  | .read access type nullable, ordinals, h, node => by
    rw [Fits] at h
    rw [shapeNode]
    refine .bind (.ofExcept (access.node_failsOnly h node)) fun raw => ?_
    exact .bind (.ofExcept (readValue_failsOnly type nullable raw)) fun v => .pure _
  | .entity info embedded, ordinals, h, node => by
    rw [Fits] at h
    obtain ⟨hwidth, hkey, hembedded⟩ := h
    have hnone : ordinals = none := by simpa using hwidth
    rw [shapeNode, hnone]
    have fields : ∀ node, Shaping.FailsOnly IsValueError (shapeFields none node embedded) :=
      fun node => shapeFields_failsOnly embedded none hembedded node
    exact shapeEntity_failsOnly hkey fields _
  | .collection path element, ordinals, h, node => by
    rw [Fits] at h
    rw [shapeNode]
    split
    · exact .pure _
    · refine .bind (.mapM fun item _ => ?_) fun items => .pure _
      exact shapeNode_failsOnly element none h item
    · exact .fail (isValueError nofun)
  | .record fields, ordinals, h, node => by
    rw [Fits] at h
    rw [shapeNode]
    exact .bind (shapeFields_failsOnly fields ordinals h node) fun items => .pure _
  | .constant value, ordinals, h, node => by
    rw [shapeNode]
    exact .pure _

theorem shapeFields_failsOnly : ∀ (fields : List (String × RowShaper))
    (ordinals : Option (List Json)), FieldsFit (ordinals.map List.length) fields → ∀ node,
    Shaping.FailsOnly IsValueError (shapeFields ordinals node fields)
  | [], ordinals, _, node => by
    rw [shapeFields]
    exact .pure _
  | (name, s) :: rest, ordinals, h, node => by
    rw [FieldsFit] at h
    rw [shapeFields]
    refine .bind (shapeNode_failsOnly s ordinals h.1 node) fun first => ?_
    exact .bind (shapeFields_failsOnly rest ordinals h.2 node) fun others => .pure _

end

/-- **A shaper that fits a row fails only for the values in it.** -/
theorem shapeRow_failsOnly {s : RowShaper} {row : Row} (h : s.Fits row.width) :
    Shaping.FailsOnly IsValueError (s.shapeRow row) := by
  cases row with
  | document body => exact s.shapeNode_failsOnly none h body
  | ordinal values => exact s.shapeNode_failsOnly (some values) h .null

end RowShaper

end DocQuery
