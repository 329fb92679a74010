/-
# Serialized form of rows
-/
import DocQuery.Codec.Query
import DocQuery.Execution

namespace DocQuery.Row

open Codec

def encode : Row → Json
  | .document body => variant "Document" body
  | .ordinal values => variant "Ordinal" (.array values)

/-- Values inside rows are kept in canonical form. -/
def decode? {w : Json} (p : Part w) : Option Row := do
  match ← variant? p with
  | ("Document", data) => return .document data.1.canonical
  | ("Ordinal", data) => return .ordinal (← list? (fun item => some item.1.canonical) data)
  | _ => none

end DocQuery.Row
