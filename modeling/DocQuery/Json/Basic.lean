/-
# JSON values

A number is an integer of 64 bits or a finite floating point value; the two kinds are never equal,
so `1` and `1.0` are different values.  A single precision number occurs only in encoded scalars,
where it decides how many digits are written.

The members of an object are a list.  `Json.canonical` sorts them by name and keeps the last of
repeated ones; documents are canonical, so their lookups and their text do not depend on the order
they were written in.
-/
import DocQuery.Dictionary
import DocQuery.Number.Double

namespace DocQuery

inductive Number where
  /-- An integer literal between `-2^63` and `2^64 - 1`. -/
  | integer (value : Int)
  | double (value : Finite)
  | single (value : Finite)
deriving DecidableEq

inductive Json where
  | null
  | bool (value : Bool)
  | number (value : Number)
  | string (value : String)
  | array (items : List Json)
  | object (members : List (String × Json))

instance : Inhabited Json := ⟨.null⟩

/-! ## 1. Views of a number -/

/-- Integers of the signed 64-bit range. -/
def fitsInt64 (n : Int) : Bool := -0x8000000000000000 ≤ n && n < 0x8000000000000000

/-- Integers of the signed 32-bit range. -/
def fitsInt32 (n : Int) : Bool := -0x80000000 ≤ n && n < 0x80000000

namespace Number

/-- The nearest double. -/
def toDouble : Number → Double
  | .integer n => .ofInt n
  | .double x | .single x => .finite x

/-- Equal numbers are of one kind; floating point values compare by value, so the zeros are
equal. -/
def same : Number → Number → Bool
  | .integer a, .integer b => a == b
  | .integer _, _ | _, .integer _ => false
  | a, b => a.toDouble.equal b.toDouble

/-- A double as a JSON number, if it is finite. -/
def ofDouble? (x : Double) : Option Number := x.finite?.map .double

end Number

namespace Json

/-- An integer as a JSON number. -/
def ofInt (n : Int) : Json := .number (.integer n)

/-- A double as a JSON number; JSON has none for NaN and the infinities. -/
def ofDouble (x : Double) : Json :=
  match Number.ofDouble? x with
  | some n => .number n
  | none => .null

def isNull : Json → Bool
  | .null => true
  | _ => false

def asBool? : Json → Option Bool
  | .bool b => some b
  | _ => none

def asString? : Json → Option String
  | .string s => some s
  | _ => none

def asArray? : Json → Option (List Json)
  | .array items => some items
  | _ => none

def asDouble? : Json → Option Double
  | .number n => some n.toDouble
  | _ => none

/-- An integer that fits a signed 64-bit word. -/
def asInt64? : Json → Option Int
  | .number (.integer n) => if fitsInt64 n then some n else none
  | _ => none

/-- An integer that is not negative. -/
def asNat? : Json → Option Nat
  | .number (.integer n) => if 0 ≤ n then some n.toNat else none
  | _ => none

/-- The member of an object. -/
def member? (j : Json) (name : String) : Option Json :=
  match j with
  | .object members => members.lookup name
  | _ => none

/-- An object from a dictionary. -/
def ofDictionary (d : Dictionary Json) : Json := .object d.entries

/-! ## 2. Equality and canonical form -/

mutual

/-- Equality of documents, with numbers compared by `Number.same`. -/
def same : Json → Json → Bool
  | .null, .null => true
  | .bool a, .bool b => a == b
  | .number a, .number b => a.same b
  | .string a, .string b => a == b
  | .array a, .array b => sameItems a b
  | .object a, .object b => sameMembers a b
  | _, _ => false

def sameItems : List Json → List Json → Bool
  | [], [] => true
  | a :: as, b :: bs => same a b && sameItems as bs
  | _, _ => false

def sameMembers : List (String × Json) → List (String × Json) → Bool
  | [], [] => true
  | (ka, a) :: as, (kb, b) :: bs => ka == kb && same a b && sameMembers as bs
  | _, _ => false

end

mutual

/-- Sorts the members of every object by name; of repeated members the last one counts. -/
def canonical : Json → Json
  | .array items => .array (canonicalItems items)
  | .object members => .object (canonicalMembers [] members)
  | j => j

def canonicalItems : List Json → List Json
  | [] => []
  | j :: rest => canonical j :: canonicalItems rest

def canonicalMembers (sorted : List (String × Json)) : List (String × Json) → List (String × Json)
  | [] => sorted
  | (name, j) :: rest => canonicalMembers (insertAscending name (canonical j) sorted) rest

end

end Json

end DocQuery
