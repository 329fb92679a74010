/-
# Comma separated values

A text is a list of records, and a record a list of fields.  Commas part the fields and line ends
the records; between quotes both are text, and a quote is written twice.  Any text can be read: a
quote inside an unquoted field is text, what follows a closed quote belongs to its field, and the
end of the text closes what is open.
-/

namespace DocQuery.Csv

/-- Where a reader is in a record. -/
inductive Position where
  /-- Before a record, where line ends are passed over. -/
  | outside
  /-- Behind a comma. -/
  | fieldStart
  /-- In a field outside quotes. -/
  | plain
  | quoted
  /-- Behind a quote in a quoted field; a second one stands for a quote. -/
  | closing
deriving DecidableEq

def isLineEnd (c : Char) : Bool := c == '\n' || c == '\r'

/-- Ends a record; its last field and its other fields come in reverse. -/
def finish (field : List Char) (record : List String) : List String :=
  (String.ofList field.reverse :: record).reverse

/-- The records of the rest of a text.  The field and the record that have begun are in reverse, and
outside of records there is none. -/
def recordsFrom (p : Position) (field : List Char) (record : List String) :
    List Char → List (List String)
  | [] => if p = .outside then [] else [finish field record]
  | c :: rest =>
    if p = .quoted then
      if c = '"' then recordsFrom .closing field record rest
      else recordsFrom .quoted (c :: field) record rest
    else if c = '"' && (p = .outside || p = .fieldStart) then recordsFrom .quoted [] record rest
    else if c = '"' && p = .closing then recordsFrom .quoted ('"' :: field) record rest
    else if isLineEnd c then
      if p = .outside then recordsFrom .outside [] [] rest
      else finish field record :: recordsFrom .outside [] [] rest
    else if c = ',' then recordsFrom .fieldStart [] (String.ofList field.reverse :: record) rest
    else recordsFrom .plain (c :: field) record rest

/-- The records of a text.  A byte order mark in front is no part of them. -/
def records (text : List Char) : List (List String) :=
  match text with
  | '\ufeff' :: rest => recordsFrom .outside [] [] rest
  | cs => recordsFrom .outside [] [] cs

end DocQuery.Csv
