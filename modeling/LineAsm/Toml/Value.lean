/-!
# Documents of tables

The values of a TOML 1.0 document, and how its keys and headers build tables. A table remembers how
it came to be, because that decides what may still be added to it:

* a header names a table once; a table that only stood on the way to another may still be named;
* a dotted key may extend tables that dotted keys made, and no others;
* nothing is ever added to a value.
-/
namespace LineAsm.Toml

/-- How a table came to be. -/
inductive Origin where
  /-- Named by a header. -/
  | header
  /-- On the way to a table that a header names. -/
  | passed
  /-- On the way to a value that a dotted key names. -/
  | dotted
  deriving DecidableEq

/-- A value on the right of a key. Dates and times are read and not kept. -/
inductive Value where
  | integer (value : Int)
  | float (value : Float)
  | boolean (value : Bool)
  | text (text : String)
  | moment
  | array (items : List Value)
  | table (origin : Origin) (entries : List (String × Value))

/-- What a key of a document stands for. -/
inductive Node where
  | value (value : Value)
  | table (origin : Origin) (entries : List (String × Node))
  | tables (all : List (List (String × Node)))

/-- The entries of a table in the order of their first mention. -/
abbrev Entries (α : Type) := List (String × α)

namespace Entries

/-- Puts an entry in the place of an older one with its key, or last. -/
def put (entries : Entries α) (key : String) (a : α) : Entries α :=
  if entries.any (·.1 == key) then entries.map fun e => if e.1 == key then (key, a) else e
  else entries ++ [(key, a)]

/-- Adds an entry with a new key. -/
def add? (entries : Entries α) (key : String) (a : α) : Option (Entries α) :=
  if entries.any (·.1 == key) then none else some (entries ++ [(key, a)])

end Entries

/-! ## Inline tables -/

/-- Adds a value to an inline table under a dotted key. -/
def addInline? (value : Value) : (key : List String) → Entries Value → Option (Entries Value)
  | [], _ => none
  | [last], entries => entries.add? last value
  | first :: rest, entries =>
    match entries.lookup first with
    | none => (addInline? value rest []).map fun inner => entries.put first (.table .dotted inner)
    | some (.table .dotted inner) =>
      (addInline? value rest inner).map fun inner => entries.put first (.table .dotted inner)
    | some _ => none

/-! ## Tables of the document -/

/-- Adds a value under a dotted key to a table. A key with a dot ends in a table that dotted keys
made. -/
def addKey? (value : Value) : (key : List String) → Entries Node → Option (Entries Node)
  | [], _ => none
  | [last], entries => entries.add? last (.value value)
  | first :: rest, entries =>
    match entries.lookup first with
    | none => (addKey? value rest []).map fun inner => entries.put first (.table .dotted inner)
    | some (.table .dotted inner) =>
      (addKey? value rest inner).map fun inner => entries.put first (.table .dotted inner)
    | some _ => none

/-- Changes the entries of the table that a path of a header leads to. Missing tables on the way are
made; in a list of tables the way goes through the last. -/
def atPath? (change : Entries Node → Option (Entries Node)) :
    (path : List String) → Entries Node → Option (Entries Node)
  | [], entries => change entries
  | key :: rest, entries =>
    match entries.lookup key with
    | none => (atPath? change rest []).map fun inner => entries.put key (.table .passed inner)
    | some (.table origin inner) =>
      (atPath? change rest inner).map fun inner => entries.put key (.table origin inner)
    | some (.tables all) =>
      match all.getLast? with
      | none => none
      | some last =>
        (atPath? change rest last).map fun inner =>
          entries.put key (.tables (all.dropLast ++ [inner]))
    | some (.value _) => none

/-- Names a table in its parent. -/
def nameTable? (key : String) (entries : Entries Node) : Option (Entries Node) :=
  match entries.lookup key with
  | none => some (entries.put key (.table .header []))
  | some (.table .passed inner) => some (entries.put key (.table .header inner))
  | some _ => none

/-- Adds a table to a list of tables in its parent. -/
def nameElement? (key : String) (entries : Entries Node) : Option (Entries Node) :=
  match entries.lookup key with
  | none => some (entries.put key (.tables [[]]))
  | some (.tables all) => some (entries.put key (.tables (all ++ [[]])))
  | some _ => none

/-- A document under construction: its entries and the header in force. -/
structure Draft where
  entries : Entries Node := []
  header : List String := []

namespace Draft

/-- Takes in a header, of a table or of an element of a list of tables. -/
def open? (d : Draft) (element : Bool) (path : List String) : Option Draft :=
  match path.getLast? with
  | none => none
  | some key =>
    let name := if element then nameElement? key else nameTable? key
    (atPath? name path.dropLast d.entries).map (⟨·, path⟩)

/-- Takes in a key and its value. -/
def set? (d : Draft) (key : List String) (value : Value) : Option Draft :=
  (atPath? (addKey? value key) d.header d.entries).map (⟨·, d.header⟩)

end Draft

end LineAsm.Toml
