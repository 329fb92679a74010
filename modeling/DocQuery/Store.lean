/-
# The document store

Documents by container, partition and id, listed in the order of their last writes.  A write
replaces the document with the same container, partition and id; a write that is refused leaves the
store as it was.
-/
import DocQuery.DocumentKey
import DocQuery.Execution
import DocQuery.Json.Reader

namespace DocQuery

structure StoredDocument where
  container : String
  id : String
  partition : Option String
  body : Json

namespace StoredDocument

/-- Whether two documents have the same place in the store. -/
def samePlace (a b : StoredDocument) : Bool :=
  a.container == b.container && a.id == b.id && a.partition == b.partition

/-- Whether a document is in the scope of a partition key; without one all are. -/
def inPartition (d : StoredDocument) (partitionKey : Option String) : Bool :=
  partitionKey.isNone || d.partition == partitionKey

end StoredDocument

structure Store where
  documents : List StoredDocument

/-- A finalized select with the command it was written as. -/
structure QueryRequest where
  container : String
  partitionKey : Option String
  layout : RowLayout
  command : Command
  select : Select

structure LookupRequest where
  container : String
  partitionKey : Option String
  id : String

namespace Store

def empty : Store := ⟨[]⟩

instance : Inhabited Store := ⟨empty⟩

/-- The documents of a container. -/
def container (s : Store) (name : String) : List StoredDocument :=
  s.documents.filter (·.container == name)

def size (s : Store) (container : String) : Nat := (s.container container).length

def isEmpty (s : Store) : Bool := s.documents.isEmpty

/-! ## 1. Writing -/

/-- Puts a document at the end, in place of the one with its place. -/
def put (s : Store) (d : StoredDocument) : Store :=
  ⟨s.documents.filter (fun e => !e.samePlace d) ++ [d]⟩

/-- The stored form of a document of an entity type. -/
def stored (t : EntityType) (document : Json) : Except RunError StoredDocument := do
  match document with
  | .object _ =>
    let id ← documentId (← t.keyValues document)
    return ⟨t.container, id, ← t.partition document, document⟩
  | _ => .error (.storage (.notAnObject t.name))

/-- Stores a document and returns its id. -/
def insert (s : Store) (t : EntityType) (document : Json) : Except RunError (String × Store) := do
  let d ← stored t document
  return (d.id, s.put d)

/-! ## 2. Loading lines -/

/-- The lines of a text in bytes.  A line ends with a newline, which takes one carriage return
before it along; the last line may lack it. -/
def linesFrom (line : List UInt8) : List UInt8 → List (List UInt8)
  | [] => if line.isEmpty then [] else [line.reverse]
  | b :: rest =>
    if b = 10 then
      let ended := match line with
        | 13 :: l => l
        | l => l
      ended.reverse :: linesFrom [] rest
    else linesFrom (b :: line) rest

def lines (bytes : List UInt8) : List (List UInt8) := linesFrom [] bytes

/-- The text that bytes encode. -/
def utf8? (bytes : List UInt8) : Option String := String.fromUTF8? ⟨bytes.toArray⟩

/-- Loads one line, counted from 1; a blank one holds no document. -/
def loadLine (s : Store) (t : EntityType) (number : Nat) (line : List UInt8) :
    Except RunError (Bool × Store) := do
  match utf8? line with
  | none => .error (.storage .notUtf8)
  | some text =>
    if text.toList.all Text.isBlank then return (false, s)
    match Json.parse? text with
    | none => .error (.storage (.badLine number))
    | some document => return (true, (← s.insert t document.canonical).2)

/-- Loads lines up to the first that is refused; what was loaded before it stays. -/
def loadFrom (s : Store) (t : EntityType) (number count : Nat) :
    List (List UInt8) → Except RunError Nat × Store
  | [] => (.ok count, s)
  | line :: rest => match s.loadLine t number line with
    | .error e => (.error e, s)
    | .ok (loaded, s) => s.loadFrom t (number + 1) (if loaded then count + 1 else count) rest

/-- Loads one JSON document per line and counts them. -/
def load (s : Store) (t : EntityType) (bytes : List UInt8) : Except RunError Nat × Store :=
  s.loadFrom t 1 0 (lines bytes)

/-! ## 3. Reading -/

/-- The bodies of the documents in scope. -/
def scope (s : Store) (container : String) (partitionKey : Option String) : List Json :=
  ((s.container container).filter (·.inPartition partitionKey)).map (·.body)

def execute (s : Store) (r : QueryRequest) : Except RunError (List Row) :=
  r.select.run r.command.bindings r.layout (s.scope r.container r.partitionKey)

/-- The first document in scope with the id. -/
def read (s : Store) (r : LookupRequest) : Option Row :=
  ((s.container r.container).find? fun d => d.id == r.id && d.inPartition r.partitionKey).map
    fun d => .document d.body

end Store

end DocQuery
