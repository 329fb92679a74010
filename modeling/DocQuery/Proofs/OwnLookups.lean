/-
# Looking up what was written

Who writes a document takes its id and its partition from its members; who looks it up takes them
from parameters.  When the parameters carry the document's own values (`PointLookup.Carries`), the
two come to one id (`PointLookup.request_of_partition`).  Whether they come to one PARTITION
depends on the entity type.

* **With a partition key** whose value is not null, writer and reader come to one partition
  (`PointLookup.partition_of_carries`).  In its partition a document that was just written is the
  only one with its id (`Store.read_put_in_partition`), so the lookup reads it.
* **Without a partition key** there is no partition to look in, and the lookup reads every
  partition of the container.  A document in some partition comes before one in none
  (`Store.read_put_anywhere`), so what is found is the first document with the id, which need not
  be of that type.

`BoundQuery.fetch_own_document` says both.  `BoundQuery.loose_note_hidden` is the second case at
work: two entity types share a container, one of them without a partition key, and a document of
that one is hidden behind a document of the other with the same id.

Nothing is said here of a partition key that is null: the writer puts the document outside all
partitions, and the lookup reads the partition of the empty text.
-/
import DocQuery.BoundQuery
import DocQuery.Proofs.DocumentIds
import DocQuery.Proofs.LastWrites

namespace DocQuery

namespace Store

variable {s : Store} {d : StoredDocument}

/-! ## 1. Reading after a write -/

theorem container_put (s : Store) (d : StoredDocument) : (s.put d).container d.container =
    (s.container d.container).filter (fun e => !e.samePlace d) ++ [d] := by
  simp only [container, put, List.filter_append, List.filter_filter, List.filter_cons, beq_self_eq_true,
    if_true, List.filter_nil, Bool.and_comm]

/-- A written document is the last one with its id that a lookup can find. -/
theorem read_put {partitionKey : Option String} (hd : d.inPartition partitionKey = true) :
    (s.put d).read ⟨d.container, partitionKey, d.id⟩ =
      some (.document (((s.container d.container).find? fun e =>
        !e.samePlace d && (e.id == d.id && e.inPartition partitionKey)).getD d).body) := by
  have own : [d].find? (fun e => e.id == d.id && e.inPartition partitionKey) = some d := by
    simp [hd]
  have found : ((s.put d).container d.container).find?
      (fun e => e.id == d.id && e.inPartition partitionKey) = some (((s.container d.container).find?
        fun e => !e.samePlace d && (e.id == d.id && e.inPartition partitionKey)).getD d) := by
    rw [container_put, List.find?_append, List.find?_filter, own, Option.or_some]
    simp only [Bool.decide_and, Bool.decide_eq_true]
  exact congrArg (Option.map _) found

/-- In its partition it is the only one. -/
theorem read_put_in_partition {partition : String} (hd : d.partition = some partition) :
    (s.put d).read ⟨d.container, some partition, d.id⟩ = some (.document d.body) := by
  have others : ((s.container d.container).find? fun e =>
      !e.samePlace d && (e.id == d.id && e.inPartition (some partition))) = none := by
    refine List.find?_eq_none.2 fun e he other => ?_
    simp only [StoredDocument.inPartition, Option.isNone_some, Bool.false_or, Bool.and_eq_true,
      Bool.not_eq_true', beq_iff_eq] at other
    obtain ⟨apart, id, partition⟩ := other
    have same : e.samePlace d = true :=
      StoredDocument.samePlace_iff.2 ⟨container_eq_of_mem he, id, partition.trans hd.symm⟩
    exact Bool.false_ne_true (apart.symm.trans same)
  rw [read_put (by simp [StoredDocument.inPartition, hd]), others, Option.getD_none]

/-- Across all partitions one that is in a partition comes first. -/
theorem read_put_anywhere (hd : d.partition = none) :
    (s.put d).read ⟨d.container, none, d.id⟩ =
      some (.document (((s.container d.container).find? fun e =>
        e.id == d.id && e.partition.isSome).getD d).body) := by
  have others : ((s.container d.container).find? fun e =>
      !e.samePlace d && (e.id == d.id && e.inPartition none)) =
        (s.container d.container).find? fun e => e.id == d.id && e.partition.isSome := by
    refine List.find?_congr fun e he => ?_
    simp only [StoredDocument.samePlace, StoredDocument.inPartition, container_eq_of_mem he, hd,
      beq_self_eq_true, Bool.true_and, Option.isNone_none, Bool.true_or, Bool.and_true]
    cases e.id == d.id <;> cases e.partition <;> rfl
  rw [read_put rfl, others]

end Store

/-- The lookup of an entity type with a parameter for each property. -/
def EntityType.lookup (t : EntityType) (names : Dictionary String) : PointLookup :=
  { PointLookup.ofEntity t with propertyParameters := names }

namespace PointLookup

variable {l : PointLookup} {parameters : Parameters} {document : Json}

/-! ## 2. Requests with a document's own values -/

/-- The lookup's parameter for a property has the value of the property in a document. -/
def Carries (l : PointLookup) (parameters : Parameters) (document : Json) (name : String) : Prop :=
  ∃ p v parameter, l.entityType.property name = .ok p ∧ p.read? document = some v ∧
    l.propertyParameters.find? name = some parameter ∧ parameters.scalar parameter = .ok v

theorem keyValues_of_carries {key : List Scalar}
    (carries : ∀ name ∈ l.entityType.key, l.Carries parameters document name)
    (hkey : l.entityType.keyValues document = .ok key) :
    l.entityType.key.mapM (l.keyValue parameters) = .ok key := by
  obtain ⟨properties, hproperties, hkey⟩ := EntityType.keyValues_eq_ok.1 hkey
  refine mapM_of_mapM_mapM (fun name hname p v hp hv => ?_) hproperties hkey
  obtain ⟨p', v', parameter, hp', hv', hparameter, value⟩ := carries name hname
  have same : p = p' := Except.ok.inj (hp.symm.trans hp')
  rw [EntityType.keyValue_eq_ok, same, hv', Option.some.injEq] at hv
  rw [keyValue, hparameter, ← hv]
  exact RunError.lift_eq_ok.2 value

/-- The id of the request is the one under which the document is stored. -/
theorem request_of_partition {d : StoredDocument} {partition : Option String}
    (hd : Store.stored l.entityType document = .ok d)
    (carries : ∀ name ∈ l.entityType.key, l.Carries parameters document name)
    (hpartition : l.partition none parameters = .ok partition) :
    l.request none parameters = .ok ⟨l.container, partition, d.id⟩ := by
  obtain ⟨-, key, hkey, hid, -⟩ := Store.stored_eq_ok.1 hd
  simp only [request, bind_eq_ok, pure_eq_ok]
  exact ⟨key, keyValues_of_carries carries hkey, partition, hpartition, d.id, hid, rfl⟩

/-- A value that is not null is one partition to the writer and to the reader. -/
theorem partition_of_carries {name : String} {p : Property}
    (named : l.entityType.partitionKey = some name) (hp : l.entityType.property name = .ok p)
    (full : p.read? document ≠ some .null) (carries : l.Carries parameters document name) :
    ∃ partition, l.entityType.partition document = .ok (some partition) ∧
      l.partition none parameters = .ok (some partition) := by
  obtain ⟨p', v, parameter, hp', hv, hparameter, value⟩ := carries
  obtain rfl : p = p' := Except.ok.inj (hp.symm.trans hp')
  refine ⟨v.keyText, ?_, ?_⟩
  · have filled : v ≠ .null := fun null => full (null ▸ hv)
    simp only [EntityType.partition, named, bind_eq_ok, pure_eq_ok, RunError.lift_eq_ok]
    refine ⟨p, hp, ?_⟩
    rw [Property.read?] at hv
    rw [hv]
    cases v with
    | null => exact absurd rfl filled
    | _ => rfl
  · simp only [partition, named, Option.bind_some, hparameter, value]
    rfl

end PointLookup

/-! ## 3. What the lookup finds -/

/-- **A lookup with a document's own values, just after the document was written.**  When its entity
type has a partition key and the document's is not null, it finds the document.  When the type has
none, it finds the first document of the container that is in some partition and has the id, and
the document itself if there is no such one. -/
theorem BoundQuery.fetch_own_document {s s' : Store} {t : EntityType} {document : Json} {id : String}
    {names : Dictionary String} {q : BoundQuery}
    (inserted : s.insert t document = .ok (id, s'))
    (source : q.source = .lookup (t.lookup names)) (unconfigured : q.plan.partitionKey = none)
    (carries : ∀ name ∈ t.key ++ t.partitionKey.toList,
      (t.lookup names).Carries q.context.parameters document name) :
    (∀ name p, t.partitionKey = some name → t.property name = .ok p →
      p.read? document ≠ some .null → q.fetch s' = .ok [.document document]) ∧
    (t.partitionKey = none → q.fetch s' = .ok [.document
      ((((s.container t.container).find? fun e => e.id == id && e.partition.isSome).map
        (·.body)).getD document)]) := by
  obtain ⟨d, hd, rfl, rfl⟩ := Store.insert_eq_ok.1 inserted
  obtain ⟨-, -, -, -, hpartition, container, body⟩ := Store.stored_eq_ok.1 hd
  have keys := fun name hname => carries name (List.mem_append_left _ hname)
  have reads : ∀ partition row,
      (t.lookup names).partition none q.context.parameters = .ok partition →
      (s.put d).read ⟨d.container, partition, d.id⟩ = some row → q.fetch (s.put d) = .ok [row] := by
    intro partition row looked found
    rw [container] at found
    simp only [BoundQuery.fetch, source, unconfigured, bind_eq_ok, pure_eq_ok]
    exact ⟨_, PointLookup.request_of_partition hd keys looked, congrArg Option.toList found⟩
  constructor
  · intro name p named hp full
    obtain ⟨partition, written, looked⟩ := PointLookup.partition_of_carries
      (l := t.lookup names) named hp full
      (carries name (List.mem_append_right _ (by simp [named])))
    have hd' : d.partition = some partition :=
      Except.ok.inj (hpartition.symm.trans written)
    rw [← body]
    exact reads _ _ looked (Store.read_put_in_partition hd')
  · intro unnamed
    have hd' : d.partition = none := by
      rw [EntityType.partition, unnamed] at hpartition
      exact (Except.ok.inj hpartition).symm
    have looked : (t.lookup names).partition none q.context.parameters = .ok none := by
      simp only [PointLookup.partition, EntityType.lookup, PointLookup.ofEntity, unnamed,
        Option.bind_none]
    rw [reads _ _ looked (Store.read_put_anywhere hd'), container, ← body, Option.getD_map]

/-- Notes in folders, and notes without one; both are in one container. -/
def filedNote : EntityType :=
  ⟨"Filed", "notes", [⟨"Id", .int32, false, "id", none⟩, ⟨"Folder", .utf8, true, "folder", none⟩],
    ["Id"], some "Folder", []⟩

def looseNote : EntityType := ⟨"Loose", "notes", [⟨"Id", .int32, false, "id", none⟩], ["Id"], none, []⟩

def filedLookup : PointLookup := filedNote.lookup (.ofList [("Id", "id"), ("Folder", "folder")])

def looseLookup : PointLookup := looseNote.lookup (.ofList [("Id", "id")])

def noteCompiler : Compiler where
  model := .ofList [filedNote, looseNote]
  config := .default
  contextType := "Notes"
  constantFactory := id

def noteParameters : Parameters :=
  .ofList [("id", .scalar (.int32 1)), ("folder", .scalar (.text "a"))]

/-- The query of a lookup of notes. -/
structure NoteQuery (l : PointLookup) (q : BoundQuery) : Prop where
  compiled : ∃ plan, noteCompiler.compile ⟨.lookup l, .entity l.entityType.name 0 false⟩ = .ok plan ∧
    plan.bind (noteCompiler.queryContext noteParameters) = .ok q
  source : q.source = .lookup l
  unconfigured : q.plan.partitionKey = none
  parameters : q.context.parameters = noteParameters

theorem exists_noteQuery {l : PointLookup} (hl : l = filedLookup ∨ l = looseLookup) :
    ∃ q, NoteQuery l q := by
  -- the expansion of a shaper is by well-founded recursion, so it is not evaluated but unfolded
  obtain ⟨shaper, hshaper⟩ : ∃ shaper, l.bind noteCompiler.model noteCompiler.identity
      (.entity l.entityType.name 0 false) = .ok shaper := by
    rcases hl with rfl | rfl <;>
      exact ⟨_, by rw [PointLookup.bind, Model.entityShaper, expandEntity]; rfl⟩
  obtain ⟨plan, compiled, q, bound, source, unconfigured, parameters⟩ : ∃ plan,
      noteCompiler.compile ⟨.lookup l, .entity l.entityType.name 0 false⟩ = .ok plan ∧
      ∃ q, plan.bind (noteCompiler.queryContext noteParameters) = .ok q ∧ q.source = .lookup l ∧
        q.plan.partitionKey = none ∧ q.context.parameters = noteParameters := by
    simp only [Compiler.compile, Compiler.compileLookup, hshaper]
    rcases hl with rfl | rfl <;> exact ⟨_, rfl, _, rfl, rfl, rfl, rfl⟩
  exact ⟨q, ⟨plan, compiled, bound⟩, source, unconfigured, parameters⟩

def filedBody : Json := .object [("folder", .string "a"), ("id", .ofInt 1)]

def looseBody : Json := .object [("id", .ofInt 1)]

/-- A note in a folder is found although there is a loose one with its id. -/
theorem BoundQuery.fetch_own_document_filed : ∃ q s', NoteQuery filedLookup q ∧
    (Store.perform [.insert looseNote looseBody]).insert filedNote filedBody = .ok ("1", s') ∧
    q.fetch s' = .ok [.document filedBody] := by
  obtain ⟨q, hq⟩ := exists_noteQuery (.inl rfl)
  refine ⟨q, _, hq, rfl, ?_⟩
  have carries : ∀ name ∈ filedNote.key ++ filedNote.partitionKey.toList,
      filedLookup.Carries q.context.parameters filedBody name := by
    rw [hq.parameters]
    intro name hname
    rcases List.mem_cons.1 hname with rfl | hname
    · exact ⟨_, _, _, rfl, rfl, rfl, rfl⟩
    · cases List.mem_singleton.1 hname
      exact ⟨_, _, _, rfl, rfl, rfl, rfl⟩
  exact (BoundQuery.fetch_own_document rfl hq.source hq.unconfigured carries).1 "Folder"
    ⟨"Folder", .utf8, true, "folder", none⟩ rfl rfl nofun

/-- **A loose note is not found when a note in a folder has its id.** -/
theorem BoundQuery.loose_note_hidden :
    ¬∀ (inserts : List (EntityType × Json)) (s' : Store) (t : EntityType) (document : Json)
      (id : String) (names : Dictionary String) (q : BoundQuery), t.key ≠ [] →
      (Store.perform (inserts.map fun e => .insert e.1 e.2)).insert t document = .ok (id, s') →
      q.source = .lookup (t.lookup names) → q.plan.partitionKey = none →
      (∀ name ∈ t.key ++ t.partitionKey.toList,
        (t.lookup names).Carries q.context.parameters document name) →
      q.fetch s' = .ok [.document document] := by
  intro all
  obtain ⟨q, hq⟩ := exists_noteQuery (.inr rfl)
  have carries : ∀ name ∈ looseNote.key ++ looseNote.partitionKey.toList,
      looseLookup.Carries q.context.parameters looseBody name := by
    rw [hq.parameters]
    intro name hname
    cases List.mem_singleton.1 hname
    exact ⟨_, _, _, rfl, rfl, rfl, rfl⟩
  have own := all [(filedNote, filedBody)] _ looseNote looseBody "1" _ q (List.cons_ne_nil _ _) rfl
    hq.source hq.unconfigured carries
  rw [BoundQuery.fetch, hq.source, hq.unconfigured, hq.parameters] at own
  have filed : (.ok [.document filedBody] : Except RunError (List Row)) =
    .ok [.document looseBody] := own
  simp [filedBody, looseBody] at filed

end DocQuery
