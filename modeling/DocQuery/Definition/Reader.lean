/-
# Reading definitions

A definition is a YAML document.  Its model and settings are read as what they should be, so that a
name may look like a number.  The query is read as an untyped value first, so there a text has to
look like one; any record in it may be a list of its members in the order given here.
-/
import DocQuery.Definition
import DocQuery.Yaml.Value

namespace DocQuery

namespace Yaml

/-! ## 1. Models and settings -/

def readProperty (n : Node Nat) : Reading PropertyDefinition := do
  let ms ← readRecord ["name", "type", "nullable", "json_name", "store_type"] n
  return {
    name := ← required ms "name" readText
    type := ← required ms "type" readText
    nullable := ← defaulted ms "nullable" false readFlag
    jsonName := ← optional ms "json_name" readText
    storeType := ← optional ms "store_type" readText }

def readNavigation (n : Node Nat) : Reading NavigationDefinition := do
  let ms ← readRecord ["name", "target", "collection", "json_name"] n
  return {
    name := ← required ms "name" readText
    target := ← required ms "target" readText
    isCollection := ← defaulted ms "collection" false readFlag
    jsonName := ← optional ms "json_name" readText }

def readEntity (n : Node Nat) : Reading EntityDefinition := do
  let ms ← readRecord ["name", "container", "properties", "key", "partition_key", "embedded"] n
  return {
    name := ← required ms "name" readText
    container := ← defaulted ms "container" "" readText
    properties := ← required ms "properties" (readItems readProperty)
    key := ← defaulted ms "key" [] (readItems readText)
    partitionKey := ← optional ms "partition_key" readText
    embedded := ← defaulted ms "embedded" [] (readItems readNavigation) }

def readModel (n : Node Nat) : Reading (List EntityDefinition) := do
  let ms ← readRecord ["entity_types"] n
  required ms "entity_types" (readItems readEntity)

def readOverrides (n : Node Nat) : Reading Overrides := do
  let ms ← readRecord ["context", "tracking", "partition_key", "thread_safety_checks", "row_layout"] n
  return {
    context := ← optional ms "context" readText
    tracking := ← optional ms "tracking" readText
    partitionKey := ← optional ms "partition_key" readText
    threadSafetyChecks := ← optional ms "thread_safety_checks" readFlag
    rowLayout := ← optional ms "row_layout" (readName RowLayout.ofName?) }

/-! ## 2. Conditions -/

open Value

def membership? (v : Value) : Option Filter := do
  let fs ← v.fields? ["property", "parameter", "values"]
  let property ← Value.required fs "property" text?
  let parameter ← Value.optional fs "parameter" text?
  let values ← Value.optional fs "values" (list? json?)
  return .membership property (.of parameter values)

def comparison? (v : Value) : Option Filter := do
  let fs ← v.fields? ["property", "op", "parameter", "value"]
  let property ← Value.required fs "property" text?
  let op ← Value.required fs "op" text?
  let parameter ← Value.optional fs "parameter" text?
  let value ← Value.optional fs "value" json?
  return .comparison property op (.of parameter value)

/-- The only condition among those that may be given. -/
def onlyCondition : List Filter → Filter
  | [f] => f
  | _ => .unclear

/-- Reads a condition nested at most `depth` deep.  All parts have to be readable, also those of an
unclear condition. -/
def filterWithin? : Nat → Value → Option Filter
  | 0, _ => none
  | depth + 1, v => do
    let fs ← v.fields? ["in", "compare", "is_null", "and", "or", "not"]
    let isIn ← Value.optional fs "in" membership?
    let compare ← Value.optional fs "compare" comparison?
    let isNull ← Value.optional fs "is_null" text?
    let all ← Value.defaulted fs "and" [] (list? (filterWithin? depth))
    let any ← Value.defaulted fs "or" [] (list? (filterWithin? depth))
    let negated ← Value.optional fs "not" (filterWithin? depth)
    return onlyCondition (isIn.toList ++ compare.toList ++ (isNull.map .isNull).toList ++
      (if all.isEmpty then [] else [.all all]) ++ (if any.isEmpty then [] else [.any any]) ++
      (negated.map .negation).toList)

def filter? (v : Value) : Option Filter := filterWithin? (v.depth + 1) v

/-! ## 3. Queries -/

def argument? (v : Value) : Option (Argument Json) := do
  let fs ← v.fields? ["parameter", "value"]
  let parameter ← Value.optional fs "parameter" text?
  return .of parameter (← Value.optional fs "value" json?)

def rank? (v : Value) : Option OrderDefinition := do
  let fs ← v.fields? ["function", "property", "terms"]
  let function ← Value.required fs "function" text?
  let property ← Value.required fs "property" text?
  return .rank function property (← Value.defaulted fs "terms" [] (list? text?))

def ordering? (v : Value) : Option OrderDefinition := do
  let fs ← v.fields? ["property", "descending", "rank"]
  let property ← Value.optional fs "property" text?
  let descending ← Value.defaulted fs "descending" false flag?
  match property, ← Value.optional fs "rank" rank? with
  | some path, none => return .property path descending
  | none, some rank => return rank
  | _, _ => return .unclear

def select? (v : Value) : Option QueryDefinition := do
  let fs ← v.fields? ["entity", "filter", "order_by", "limit", "offset", "project", "distinct"]
  return .select (← Value.required fs "entity" text?) (← Value.optional fs "filter" filter?)
    (← Value.defaulted fs "order_by" [] (list? ordering?)) (← Value.optional fs "limit" argument?)
    (← Value.optional fs "offset" argument?) (← Value.defaulted fs "project" [] (list? text?))
    (← Value.defaulted fs "distinct" false flag?)

def lookup? (v : Value) : Option QueryDefinition := do
  let fs ← v.fields? ["entity", "keys"]
  return .lookup (← Value.required fs "entity" text?) (← Value.required fs "keys" texts?)

/-- The query of a kind. -/
def queryOfKind? (kind : String) (v : Value) : Option QueryDefinition :=
  match kind with
  | "select" => select? v
  | "read_item" => lookup? v
  | _ => none

/-- A member of a query: its kind, or a member of the kind. -/
def readQueryMember (depth : Nat) (m : Node Nat × Node Nat) :
    Reading (String ⊕ (Value × Value)) := do
  match ← readValue depth m.1 with
  | .text "op" => return .inl (← readText m.2)
  | key => return .inr (key, ← readValue depth m.2)

/-- A query: its kind is the member `op`, or the first item of a list. -/
def readQuery (depth : Nat) (n : Node Nat) : Reading QueryDefinition := do
  match ← follow n with
  | .mapping p members =>
    if p.localTag?.isSome then failure
    let members ← members.mapM (readQueryMember depth)
    match members.filterMap Sum.getLeft? with
    | [kind] => ofOption (queryOfKind? kind (.mapping (members.filterMap Sum.getRight?)))
    | _ => failure
  | .sequence p (kind :: items) =>
    if p.localTag?.isSome then failure
    let kind ← readText kind
    ofOption (queryOfKind? kind (.list (← items.mapM (readValue depth))))
  | _ => failure

/-- Collections may be nested this deep below the members of a query. -/
def queryDepth : Nat := 126

def readDefinition (n : Node Nat) : Reading Definition := do
  let ms ← readRecord ["config", "model", "query"] n
  return {
    overrides := (← optional ms "config" readOverrides).getD .none
    entityTypes := ← required ms "model" readModel
    query := ← required ms "query" (readQuery queryDepth) }

end Yaml

/-- The definition that a text holds. -/
def Definition.ofText? (text : String) : Option Definition :=
  (Yaml.Document.ofText? text).bind fun d => d.read? Yaml.readDefinition

end DocQuery
