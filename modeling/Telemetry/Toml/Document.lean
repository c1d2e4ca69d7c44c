import Telemetry.Toml.Number

/-!
# Whole configuration files

A file is a list of statements, each on a line of its own: a key with a value,
or a header that opens a table for the keys after it.  Arrays may run over
several lines and end in a comma; tables between braces may not.
-/

namespace Telemetry.Toml

namespace Reader

/-- Reads a value that holds no other values. -/
def scalar : Reader Value := do
  match ← peek with
  | some '"' => .text <$> (block '"' <|> line '"')
  | some '\'' => .text <$> (block '\'' <|> line '\'')
  | some 't' => word ['t', 'r', 'u', 'e']; return .boolean true
  | some 'f' => word ['f', 'a', 'l', 's', 'e']; return .boolean false
  | _ => moment <|> real <|> integer

def array (value : Reader Value) : Reader Value := do
  word ['[']
  let values ← items (lines *> value <* lines)
  if values ≠ [] then
    let _ ← attempt (word [','])
  lines
  word [']']
  return .array values

/-- Reads a key, the sign between and a value. -/
def assignment (value : Reader Value) :
    Reader ((List String × String) × Value) := do
  let key ← key
  word ['=']
  spaces
  return (key, ← value)

/-- Reads keys and values between braces. -/
def braces (value : Reader Value) : Reader Value := do
  word ['\x7b']
  let pairs ← items (assignment value <* spaces)
  spaces
  word ['\x7d']
  let table ← pairs.foldlM
    (fun (t : Table) ((path, key), value) => t.define path key value)
    ⟨.braces, []⟩
  return .table .braces table.entries

/-- Reads a value in which others are nested at most so deep. -/
def value : Nat → Reader Value
  | 0 => scalar
  | depth + 1 => do
    match ← peek with
    | some '[' => array (value depth)
    | some '\x7b' => braces (value depth)
    | _ => scalar

end Reader

/-- What has been read of a file: its table and the header in force, if any. -/
structure Draft where
  table : Table
  header : List String

namespace Draft

/-- The draft of a file before anything was read. -/
def start : Draft := ⟨.root, []⟩

def define (d : Draft) (path : List String) (key : String) (value : Value) :
    Option Draft := do
  return { d with
    table := ← d.table.change .path (Table.define path key value) d.header }

end Draft

namespace Reader

def header (opening closing : List Char) : Reader (List String × String) := do
  word opening
  let key ← key
  word closing
  lineEnd
  return key

def statement (d : Draft) : Reader Draft := do
  match ← peek with
  | some '#' => lineEnd; return d
  | some '\n' => lineBreak; return d
  | some '\r' => lineBreak; return d
  | some '[' =>
    if (← get).take 2 = ['[', '['] then
      let (path, key) ← header ['[', '['] [']', ']']
      return ⟨← d.table.openItem path key, path ++ [key]⟩
    else
      let (path, key) ← header ['['] [']']
      return ⟨← d.table.openTable path key, path ++ [key]⟩
  | _ =>
    let ((path, key), value) ← assignment (value depthBound)
    lineEnd
    d.define path key value

/-- Reads statements to the end of the file, at most `bound` of them. -/
def statements (d : Draft) : Nat → Reader Draft
  | 0 => failure
  | bound + 1 => do
    spaces
    match ← peek with
    | none => return d
    | some _ => statements (← statement d) bound

end Reader

/-- Reads a file; a byte order mark may begin it. -/
def ofText? (text : String) : Option Table := do
  let cs := match text.toList with
    | '\uFEFF' :: cs => cs
    | cs => cs
  let (d, _) ← Reader.statements .start (cs.length + 1) cs
  return d.table

end Telemetry.Toml
