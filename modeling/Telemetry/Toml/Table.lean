import Telemetry.Binary64.Basic

/-!
# Tables of a configuration file

A configuration file is a table of values, some of which are tables again.  How
a table came about decides what may still be added to it: one between braces is
complete, one with a header of its own is not opened twice, and one that grew
from dotted keys takes further dotted keys only.
-/

namespace Telemetry.Toml

/-- How a table came about. -/
inductive Origin where
  /-- It was written between braces. -/
  | braces
  /-- A header opened it. -/
  | header
  /-- It was named on the way to the header of another table. -/
  | path
  /-- It was named on the way to a dotted key. -/
  | dotted
  deriving DecidableEq, Repr

/-- A value. -/
inductive Value where
  | text (s : String)
  | integer (i : Int64)
  | real (x : Binary64)
  | boolean (b : Bool)
  /-- A date, a time or both, which no setting has. -/
  | moment
  | array (items : List Value)
  | table (origin : Origin) (entries : List (String × Value))
  /-- Tables that share a header, the last one first. -/
  | tables (items : List (List (String × Value)))

/-- The values of the keys of a table, and how it came about. -/
structure Table where
  origin : Origin
  entries : List (String × Value)

namespace Table

/-- The table of a file before anything was read. -/
def root : Table := ⟨.header, []⟩

def find? (t : Table) (key : String) : Option Value :=
  t.entries.lookup key

def put (t : Table) (key : String) (value : Value) : Table :=
  ⟨t.origin, (key, value) :: t.entries.filter fun entry => entry.1 != key⟩

/-- Whether a path of the way `way` passes through a table of some origin: a
dotted key only through tables without a header, a header through all but
those between braces. -/
def isPassable (way : Origin) : Origin → Bool
  | .braces => false
  | .header => way != .dotted
  | .path => true
  | .dotted => true

/-- Changes the table at the end of a path.  Tables that are missing on
the path are made, of the origin `way`; of tables that share a header the
last one is meant. -/
def change (way : Origin) (f : Table → Option Table) :
    List String → Table → Option Table
  | [], t => f t
  | key :: path, t => do
    let value ← match t.find? key with
      | none =>
        let child ← change way f path ⟨way, []⟩
        pure (.table child.origin child.entries)
      | some (.table origin entries) =>
        if isPassable way origin then
          let child ← change way f path ⟨origin, entries⟩
          pure (.table child.origin child.entries)
        else none
      | some (.tables (last :: earlier)) =>
        let child ← change way f path ⟨.header, last⟩
        pure (.tables (child.entries :: earlier))
      | some _ => none
    return t.put key value

/-- Gives a value to a key that has none, below the tables that a dotted key
names.  The last of them must have come from dotted keys. -/
def define (path : List String) (key : String) (value : Value) (t : Table) :
    Option Table :=
  let insert (t : Table) : Option Table :=
    if (path ≠ [] ∧ t.origin ≠ .dotted) ∨ (t.find? key).isSome then none
    else some (t.put key value)
  t.change .dotted insert path

/-- Opens the table of a header, which no header and no key has named before. -/
def openTable (path : List String) (key : String) (t : Table) : Option Table :=
  let insert (t : Table) : Option Table :=
    match t.find? key with
    | none => some (t.put key (.table .header []))
    | some (.table .path entries) => some (t.put key (.table .header entries))
    | some _ => none
  t.change .path insert path

/-- Opens one more table of a header that several tables share. -/
def openItem (path : List String) (key : String) (t : Table) : Option Table :=
  let insert (t : Table) : Option Table :=
    match t.find? key with
    | none => some (t.put key (.tables [[]]))
    | some (.tables items) => some (t.put key (.tables ([] :: items)))
    | some _ => none
  t.change .path insert path

end Table

end Telemetry.Toml
