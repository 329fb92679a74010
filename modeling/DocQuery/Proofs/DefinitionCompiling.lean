/-
# Compiling definitions

A definition that is accepted builds a query of one of three forms (`ShapedQuery.Defined`): whole
entities, records of projected columns, or a lookup.  Each satisfies what compilation takes for
granted of its query, so that compiling it fails only with faults of the model and with layouts
that are not supported (`IsQueryFault`).

* **Entities and records.**  A select has a projection, and each field of a record finds its
  column (`SelectBinding.exists_bind_record`), so binding the shaper does not fail for the query's
  own sake (`Compiler.compileSelect_failsOnly`).
* **Lookups** come back from their quoted form (`Compiler.compileLookup_failsOnly`).
* **Texts.**  What is loaded from a text builds such a query, and a database that was just opened
  compiles what it is given (`Database.compile_opened`).

One check is made on the side of the compiler alone: that a lookup has a parameter for each
property of its key.  A definition may leave one out, and then compilation ALWAYS ends in an error
that is meant for queries that cannot be written (`accepted_lookup_unreachable` is such a text).
That is the only way in which an accepted definition meets it.
-/
import DocQuery.Database
import DocQuery.Definition.Build
import DocQuery.Proofs.LookupRoundTrip
import DocQuery.Proofs.YamlCollections

namespace DocQuery

/-- The errors of compilation that a query can be the cause of: the model does not have what it asks
for, or it is not supported. -/
def IsQueryFault (e : QueryError) : Prop := IsModelError e ∨ ∃ what, e = .notSupported what

/-! ## 1. The queries of definitions -/

/-- What a definition builds. -/
inductive ShapedQuery.Defined : ShapedQuery → Prop where
  /-- Whole entities. -/
  | entities {s : Select} {name label : String} {path : List String}
      (projection : s.projection = [⟨.entity name path, label⟩]) :
      Defined ⟨.select s, .entity name 0 false⟩
  /-- Records of columns. -/
  | records {s : Select} {columns : List (Projection Expr × DataType)} (nonempty : columns ≠ [])
      (scalars : ∀ c ∈ columns, ∃ e, c.1.item = .scalar e)
      (projection : s.projection = columns.map Prod.fst) :
      Defined ⟨.select s, recordShaper columns⟩
  | lookup (l : PointLookup) : Defined ⟨.lookup l, .entity l.entityType.name 0 true⟩

/-- Each property of the key that a query looks up has a parameter. -/
def ShapedQuery.Keyed (shaped : ShapedQuery) : Prop :=
  ∀ l, shaped.query = .lookup l → ∀ k ∈ l.entityType.key, l.propertyParameters.contains k

theorem buildProjection_scalar {m : Model} {t : EntityType} {path : String}
    {c : Projection Expr × DataType} (h : buildProjection m t path = .ok c) :
    ∃ e, c.1.item = .scalar e := by
  obtain ⟨column, -, h⟩ := bind_eq_ok.1 h
  rw [← pure_eq_ok.1 h]
  exact ⟨_, rfl⟩

theorem QueryDefinition.defined_of_build {m : Model} {d : QueryDefinition} {shaped : ShapedQuery}
    (h : d.build m = .ok shaped) : shaped.Defined := by
  cases d with
  | select entity filter orderings limit offset projection distinct =>
    obtain ⟨t, -, h⟩ := bind_eq_ok.1 h
    split at h
    all_goals
      obtain ⟨predicate, -, h⟩ := bind_eq_ok.1 h
      obtain ⟨orderings, -, h⟩ := bind_eq_ok.1 h
      obtain ⟨limit, -, h⟩ := bind_eq_ok.1 h
      obtain ⟨offset, -, h⟩ := bind_eq_ok.1 h
      obtain ⟨columns, hcolumns, h⟩ := bind_eq_ok.1 h
      rw [← pure_eq_ok.1 h]
      by_cases empty : columns.isEmpty
      · simp only [if_pos empty]
        exact .entities rfl
      · simp only [if_neg empty]
        refine .records (by simpa using empty) (fun c hc => ?_) rfl
        obtain ⟨path, -, hpath⟩ := mem_of_mapM_eq_ok hcolumns c hc
        exact buildProjection_scalar hpath
  | lookup entity keys =>
    obtain ⟨t, -, h⟩ := bind_eq_ok.1 h
    rw [← pure_eq_ok.1 h]
    exact .lookup { PointLookup.ofEntity t with propertyParameters := keys }

/-! ## 2. Compiling selects -/

namespace SelectBinding

variable {b : SelectBinding}

/-- Binding the only projection, an entity, to its entity type. -/
theorem bindEntity_failsOnly {name label : String} {path : List String}
    (projection : b.select.projection = [⟨.entity name path, label⟩]) (nullable : Bool) :
    FailsOnly IsQueryFault (b.bindEntity name 0 nullable) := by
  have projected : b.projection 0 = .ok ⟨.entity name path, label⟩ := by
    simp [SelectBinding.projection, projection]
  unfold bindEntity
  refine .bind (projected ▸ .ok _) fun p hp => ?_
  cases projected.symm.trans hp
  dsimp only
  rw [if_neg fun differ => differ rfl]
  refine .ite (fun _ => .bind (.error (.inr ⟨_, rfl⟩)) fun _ h => nomatch h) fun _ => ?_
  refine ((b.model.entityType_failsOnly name).mono fun _ => .inl).bind fun t _ => ?_
  exact FailsOnly.mono (expandEntity_failsOnly _ _ _ _ _ _) fun _ => .inl

theorem exists_bindFields : ∀ {fields : List (String × Shaper)},
    (∀ f ∈ fields, ∃ s, b.bind f.2 = .ok s) → ∃ fs, b.bindFields fields = .ok fs
  | [], _ => ⟨[], rfl⟩
  | (name, s) :: rest, h => by
    obtain ⟨first, hfirst⟩ := h _ List.mem_cons_self
    obtain ⟨fs, hrest⟩ := exists_bindFields fun f hf => h f (List.mem_cons_of_mem _ hf)
    exact ⟨_, bind_eq_ok.2 ⟨first, hfirst, bind_eq_ok.2 ⟨fs, hrest, rfl⟩⟩⟩

theorem exists_bind_of_fields {fields : List (String × Shaper)}
    (h : ∀ f ∈ fields, ∃ s, b.bind f.2 = .ok s) : ∃ s, b.bind (.record fields) = .ok s := by
  obtain ⟨fs, hfs⟩ := exists_bindFields h
  exact ⟨_, bind_eq_ok.2 ⟨fs, hfs, rfl⟩⟩

/-- Each field of a record shaper finds its column. -/
theorem exists_bind_record {columns : List (Projection Expr × DataType)}
    (scalars : ∀ c ∈ columns, ∃ e, c.1.item = .scalar e)
    (projection : b.select.projection = columns.map Prod.fst) :
    ∃ s, b.bind (recordShaper columns) = .ok s := by
  refine exists_bind_of_fields fun f hf => ?_
  obtain ⟨⟨⟨⟨item, label⟩, type⟩, i⟩, hmem, rfl⟩ := List.mem_map.1 hf
  have place := List.mem_zipIdx_iff_getElem?.1 hmem
  have projected : b.projection i = .ok ⟨item, label⟩ := by
    simp [SelectBinding.projection, projection, place]
  obtain ⟨e, rfl⟩ : ∃ e, item = .scalar e := scalars _ (List.mem_of_getElem? place)
  exact ⟨_, bind_eq_ok.2 ⟨_, projected, rfl⟩⟩

end SelectBinding

/-! ## 3. Compiling -/

namespace Compiler

variable {c : Compiler} {P : QueryError → Prop}

/-- Compiling a select with a projection fails only as binding its shaper does. -/
theorem compileSelect_failsOnly (hf : c.constantFactory.Faithful) {s : Select} {shaper : Shaper}
    (projected : s.projection ≠ [])
    (binds : FailsOnly P (SelectBinding.bind ⟨c.model, s, c.config.rowLayout, c.identity⟩ shaper)) :
    FailsOnly P (c.compileSelect s shaper) := by
  have made : ∀ {t : ConstantTable} {k : LiftedConstant}, t.All ConstantTable.Typed →
      ConstantTable.Typed k.captured k.resolution k.declared →
      (t.lift (c.constantFactory k)).2.All ConstantTable.Typed := by
    intro t k ht hk
    refine ht.lift ?_
    rw [hf.captured, hf.resolution, hf.declared]
    exact hk
  have typed := made (made ConstantTable.all_empty (k := generatorConstant) ⟨rfl, rfl⟩)
    (k := expressionConstant) ⟨rfl, rfl⟩
  obtain ⟨f, hfreeze⟩ := ConstantTable.exists_freeze_iff.2 typed
  unfold compileSelect
  rw [if_neg (by simpa using projected)]
  refine .bind binds fun bound _ => ?_
  dsimp only
  rw [hfreeze]
  exact .ok _

/-- The first property of the key that has no parameter, if one has none. -/
theorem checkKeys_eq_error {l : PointLookup} {earlier later : List String} {k : String}
    (key : l.entityType.key = earlier ++ k :: later)
    (mapped : ∀ j ∈ earlier, l.propertyParameters.contains j)
    (missing : l.propertyParameters.contains k = false) :
    checkKeys l = .error (.unreachable (.keyWithoutParameter l.entityType.name k)) := by
  have found : (l.entityType.key.find? fun k => !l.propertyParameters.contains k) = some k := by
    rw [key, List.find?_append, List.find?_eq_none.2 fun j hj => by simp [mapped j hj]]
    simp [missing]
  unfold checkKeys
  rw [found]

/-- **Compiling what a definition builds.** -/
theorem compile_failsOnly_of_defined (hf : c.constantFactory.Faithful) {shaped : ShapedQuery}
    (defined : shaped.Defined)
    (keyed : shaped.Keyed) : FailsOnly IsQueryFault (c.compile shaped) := by
  cases defined with
  | entities projection =>
    exact compileSelect_failsOnly hf (by simp [projection])
      (SelectBinding.bindEntity_failsOnly projection false)
  | records nonempty scalars projection =>
    refine compileSelect_failsOnly hf (by simpa [projection] using nonempty) ?_
    obtain ⟨bound, hbound⟩ := SelectBinding.exists_bind_record
      (b := ⟨c.model, _, c.config.rowLayout, c.identity⟩) scalars projection
    rw [hbound]
    exact .ok bound
  | lookup l =>
    refine compileLookup_failsOnly hf ?_ ?_ fun fault => .inl ⟨fault, rfl⟩
    · have complete : (l.entityType.key.find? fun k => !l.propertyParameters.contains k) = none :=
        List.find?_eq_none.2 fun k hk => by simp [keyed l rfl k hk]
      unfold checkKeys
      rw [complete]
      exact .ok ()
    · rw [PointLookup.bind, if_neg fun differ => differ rfl]
      exact FailsOnly.mono (expandEntity_failsOnly _ _ _ _ _ _) fun _ => .inl

end Compiler

/-- A database that was just opened compiles what it is given. -/
theorem Database.compile_opened {c : Compiler} {d : Database}
    (opened : Database.ofCompiler c = .ok d) (shaped : ShapedQuery) :
    (d.compile shaped).1 = (c.compile shaped).map (CompiledPlan.mk 0) := by
  obtain ⟨_, -, opened⟩ := bind_eq_ok.1 opened
  obtain ⟨_, -, opened⟩ := bind_eq_ok.1 opened
  rw [← pure_eq_ok.1 opened]
  unfold compile
  dsimp only
  cases c.compile shaped <;> rfl

/-! ## 4. Accepted texts -/

namespace LoadedQuery

theorem defined_of_ofText {text : String} {loaded : LoadedQuery} (h : ofText text = .ok loaded) :
    loaded.shaped.Defined := by
  unfold ofText at h
  split at h
  · exact nomatch h
  · obtain ⟨m, -, h⟩ := bind_eq_ok.1 h
    obtain ⟨shaped, hshaped, h⟩ := bind_eq_ok.1 h
    rw [← pure_eq_ok.1 h]
    exact QueryDefinition.defined_of_build hshaped

/-- **Compiling a definition that was accepted**, in a database on its model and under any
configuration, fails only because the model lacks something or the layout is not supported, if the
key of what it looks up has parameters.  A lookup that leaves out a property of the key always ends
in an error that is meant for queries no definition makes. -/
theorem compile_accepted {text : String} {loaded : LoadedQuery}
    (accepted : ofText text = .ok loaded) {config : Config} {contextType : String} {d : Database}
    (opened : Database.ofCompiler ⟨loaded.model, config, contextType, id⟩ = .ok d) :
    (loaded.shaped.Keyed → ∀ e, (d.compile loaded.shaped).1 = .error e →
      (∃ fault, e = .model fault) ∨ ∃ what, e = .notSupported what) ∧
    ∀ l, loaded.shaped.query = .lookup l → ∀ earlier k later,
      l.entityType.key = earlier ++ k :: later → (∀ j ∈ earlier, l.propertyParameters.contains j) →
      l.propertyParameters.contains k = false →
      (d.compile loaded.shaped).1 =
        .error (.unreachable (.keyWithoutParameter l.entityType.name k)) := by
  rw [Database.compile_opened opened]
  constructor
  · intro keyed
    exact (Compiler.compile_failsOnly_of_defined ConstantFactory.faithful_id
      (defined_of_ofText accepted) keyed).map
  · intro l hl earlier k later key mapped missing
    unfold Compiler.compile
    rw [hl]
    dsimp only
    rw [Compiler.compileLookup, Compiler.checkKeys_eq_error key mapped missing]
    rfl

/-- A lookup of tags, with parameters for their key. -/
def tagText (keys : String) : String := "model:
  entity_types:
  - name: Tag
    container: tags
    key: [Id]
    properties:
    - name: Id
      type: Int32
query:
  op: read_item
  entity: Tag
  keys: " ++ keys ++ "\n"

section Documents

open Yaml

theorem document_of_tokens {text : String} {tokens : List Token} {node : RawNode}
    (lexed : tokens? text = some tokens) (parsed : rawDocument? tokens = some node) :
    Document.ofText? text = ((RawNode.number node).run .empty).bind fun r =>
      some (Document.mk r.1
        (r.2.places.filterMap fun p => (r.2.nodes.lookup p.2).map fun n => (p.1, n))
        (100 * RawNode.size node)) := by
  unfold Document.ofText?
  rw [lexed]
  dsimp only [bind, Option.bind]
  rw [parsed]
  rfl

def modelTokens (rest : List Token) : List Token :=
  .blockMappingStart :: memberTokens "entity_types" (.blockEntry :: .blockMappingStart ::
    memberTokens "name" (plainToken "Tag" :: memberTokens "container" (plainToken "tags" ::
    memberTokens "key" (.flowSequenceStart :: plainToken "Id" :: .flowSequenceEnd ::
    memberTokens "properties" (.blockEntry :: .blockMappingStart ::
      memberTokens "name" (plainToken "Id" :: memberTokens "type" (plainToken "Int32" ::
    .blockEnd :: .blockEnd :: .blockEnd :: rest)))))))

def queryTokens (keys rest : List Token) : List Token :=
  .blockMappingStart :: memberTokens "op" (plainToken "read_item" ::
    memberTokens "entity" (plainToken "Tag" ::
    memberTokens "keys" (.flowMappingStart :: (keys ++ .flowMappingEnd :: .blockEnd :: rest))))

def tagTokens (keys : List Token) : List Token :=
  .blockMappingStart :: memberTokens "model" (modelTokens
    (memberTokens "query" (queryTokens keys [.blockEnd])))

def mappingNode (members : List (String × RawNode)) : RawNode :=
  .mapping .none (members.map fun m => (plainNode m.1, m.2))

def modelNode : RawNode :=
  mappingNode [("entity_types", .sequence .none [mappingNode [
    ("name", plainNode "Tag"), ("container", plainNode "tags"),
    ("key", .sequence .none [plainNode "Id"]),
    ("properties", .sequence .none [mappingNode [
      ("name", plainNode "Id"), ("type", plainNode "Int32")]])]])]

def tagNode (keys : List (String × RawNode)) : RawNode :=
  mappingNode [("model", modelNode),
    ("query", mappingNode [("op", plainNode "read_item"), ("entity", plainNode "Tag"),
      ("keys", mappingNode keys)])]

set_option maxRecDepth 100000 in
theorem tokens_tagText_none : tokens? (tagText "\x7b\x7d") = some (tagTokens []) := by
  decide +kernel

set_option maxRecDepth 100000 in
theorem tokens_tagText_id : tokens? (tagText "\x7bId: id\x7d") =
    some (tagTokens (memberTokens "Id" [plainToken "id"])) := by
  decide +kernel

theorem takes_model {handles : Handles} {rest : List Token} :
    Takes (node? handles true true (modelTokens rest)) modelNode rest := by
  refine takes_mapping (takes_member (takes_item (takes_mapping ?_) rfl rfl) rfl takes_end)
  refine takes_member (takes_plain _) rfl (takes_member (takes_plain _) rfl ?_)
  refine takes_member (takes_flowSequence takes_oneItem) rfl ?_
  refine takes_member (takes_item (takes_mapping ?_) rfl rfl) rfl takes_end
  exact takes_member (takes_plain _) rfl (takes_member (takes_plain _) rfl takes_end)

theorem rawDocument_tagTokens (keys : List Token) (members : List (String × RawNode))
    (h : ∀ rest, Takes (flowMembers? .standard true (keys ++ .flowMappingEnd :: rest))
      (members.map fun m => (plainNode m.1, m.2)) rest) :
    rawDocument? (tagTokens keys) = some (tagNode members) := by
  have document : Takes (node? .standard true false (tagTokens keys)) (tagNode members) [] := by
    refine takes_mapping (takes_member takes_model rfl (takes_member ?_ rfl takes_end))
    refine takes_mapping (takes_member (takes_plain _) rfl (takes_member (takes_plain _) rfl ?_))
    exact takes_member (takes_flowMapping (h _)) rfl takes_end
  obtain ⟨_, document⟩ := document
  unfold tagTokens at document ⊢
  simp [rawDocument?, isDirective, document]

end Documents

def tagType : EntityType :=
  ⟨"Tag", "tags", [⟨"Id", .int32, false, "Id", none⟩], ["Id"], none, []⟩

def lookup? : Query → Option PointLookup
  | .lookup l => some l
  | _ => none

/-- What is loaded from a text, as far as it can be compared. -/
def summary? (text : String) : Option (Model × Option PointLookup) :=
  ((Definition.ofText? text).bind fun d => d.build.toOption).map fun loaded =>
    (loaded.model, lookup? loaded.shaped.query)

set_option maxRecDepth 100000 in
theorem summary_tagText_none : summary? (tagText "\x7b\x7d") =
    some (.ofList [tagType], some ⟨"tags", tagType, .empty⟩) := by
  have parsed := rawDocument_tagTokens [] [] fun _ => Yaml.takes_noMembers
  rw [summary?, Definition.ofText?, document_of_tokens tokens_tagText_none parsed]
  decide +kernel

set_option maxRecDepth 100000 in
theorem summary_tagText_id : summary? (tagText "\x7bId: id\x7d") =
    some (.ofList [tagType], some ⟨"tags", tagType, .ofList [("Id", "id")]⟩) := by
  have parsed := rawDocument_tagTokens (Yaml.memberTokens "Id" [Yaml.plainToken "id"])
    [("Id", Yaml.plainNode "id")] fun _ => Yaml.takes_oneMember
  rw [summary?, Definition.ofText?, document_of_tokens tokens_tagText_id parsed]
  decide +kernel

/-- A text with a lookup of tags is accepted, and a database opens on its model. -/
theorem exists_loaded {text : String} {l : PointLookup}
    (h : summary? text = some (.ofList [tagType], some l)) :
    ∃ loaded d, ofText text = .ok loaded ∧
      Database.ofCompiler ⟨loaded.model, .default, "Tags", id⟩ = .ok d ∧
        loaded.shaped.query = .lookup l := by
  unfold summary? at h
  cases read : Definition.ofText? text with
  | none => simp [read] at h
  | some definition =>
    cases load : definition.build with
    | error e => simp [read, load, Except.toOption] at h
    | ok loaded =>
      simp only [read, load, Except.toOption, Option.bind_some, Option.map_some, Option.some.injEq,
        Prod.mk.injEq] at h
      obtain ⟨model, query⟩ := h
      refine ⟨loaded, _, by simp [ofText, read, load], by rw [model]; rfl, ?_⟩
      unfold lookup? at query
      split at query
      · rename_i shape
        rw [shape, Option.some.inj query]
      · cases query

/-- An accepted text whose compilation ends in an error that no definition should meet. -/
theorem accepted_lookup_unreachable : ∃ loaded d, ofText (tagText "\x7b\x7d") = .ok loaded ∧
    Database.ofCompiler ⟨loaded.model, .default, "Tags", id⟩ = .ok d ∧
      (d.compile loaded.shaped).1 = .error (.unreachable (.keyWithoutParameter "Tag" "Id")) := by
  obtain ⟨loaded, d, accepted, opened, query⟩ := exists_loaded summary_tagText_none
  refine ⟨loaded, d, accepted, opened, ?_⟩
  rw [Database.compile_opened opened, Compiler.compile, query]
  rfl

/-- With a parameter for the key the lookup compiles or fails as queries do; without one it cannot
compile. -/
theorem compile_accepted_tagTexts :
    (∃ loaded d, ofText (tagText "\x7bId: id\x7d") = .ok loaded ∧
      Database.ofCompiler ⟨loaded.model, .default, "Tags", id⟩ = .ok d ∧ loaded.shaped.Keyed ∧
        ∀ e, (d.compile loaded.shaped).1 = .error e →
          (∃ fault, e = .model fault) ∨ ∃ what, e = .notSupported what) ∧
    ∃ loaded d, ofText (tagText "\x7b\x7d") = .ok loaded ∧
      Database.ofCompiler ⟨loaded.model, .default, "Tags", id⟩ = .ok d ∧
        (d.compile loaded.shaped).1 = .error (.unreachable (.keyWithoutParameter "Tag" "Id")) := by
  constructor
  · obtain ⟨loaded, d, accepted, opened, query⟩ := exists_loaded summary_tagText_id
    have keyed : loaded.shaped.Keyed := by
      intro l hl
      cases query.symm.trans hl
      decide
    exact ⟨loaded, d, accepted, opened, keyed, (compile_accepted accepted opened).1 keyed⟩
  · obtain ⟨loaded, d, accepted, opened, query⟩ := exists_loaded summary_tagText_none
    exact ⟨loaded, d, accepted, opened,
      (compile_accepted accepted opened).2 _ query [] "Id" [] rfl (by simp) rfl⟩

end LoadedQuery

end DocQuery
