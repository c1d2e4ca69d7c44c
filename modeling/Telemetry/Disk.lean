import Telemetry.OpenFile
import Telemetry.Text.Blank

/-!
# Files

A tree of directories and files, seen from a working directory.  A path is read
name by name: every name but the last must be one of a directory, and dots move
to the directory itself or to the one above it.  Nothing is ever removed or
renamed, so a file can be known by its place.
-/

namespace Telemetry

/-- Why an access to a file fails. -/
inductive IoError where
  | notFound
  | alreadyExists
  | notADirectory
  | isADirectory
  | nameTooLong
  | nulInName
  /-- The file was closed before. -/
  | closed
  /-- Any other failure, in the words of the system. -/
  | other (reason : String)
  deriving DecidableEq, Repr

def IoError.message : IoError → String
  | .notFound => "No such file or directory (os error 2)"
  | .alreadyExists => "File exists (os error 17)"
  | .notADirectory => "Not a directory (os error 20)"
  | .isADirectory => "Is a directory (os error 21)"
  | .nameTooLong => "File name too long (os error 36)"
  | .nulInName => "file name contained an unexpected NUL byte"
  | .closed => "snapshot file is closed"
  | .other reason => reason

/-- What stands at a place of the tree. -/
inductive DiskNode where
  | directory
  | file (contents : Bytes)
  deriving DecidableEq, Repr

/-- The names on the way from the working directory to a place. -/
abbrev Place := List String

/-- A tree, as what stands at each place that is taken. -/
structure Disk where
  nodes : List (Place × DiskNode)
  deriving DecidableEq, Repr

namespace Disk

/-- The tree without files. -/
def empty : Disk := ⟨[]⟩

/-- What stands at a place; the working directory itself always exists. -/
def node? (d : Disk) (place : Place) : Option DiskNode :=
  if place = [] then some .directory else d.nodes.lookup place

def put (d : Disk) (place : Place) (node : DiskNode) : Disk :=
  ⟨(place, node) :: d.nodes.filter (·.1 != place)⟩

def contents? (d : Disk) (place : Place) : Option Bytes :=
  match d.node? place with
  | some (.file contents) => some contents
  | _ => none

/-- The greatest number of bytes in a name. -/
def maxName : Nat := 255

/-- The number of bytes that no path reaches. -/
def pathBound : Nat := 4096

/-- The place one name below or above a directory. -/
def below (directory : Place) (name : String) : Except IoError Place :=
  if name = ".." then .ok directory.dropLast
  else if maxName < name.utf8ByteSize then .error .nameTooLong
  else .ok (directory ++ [name])

/-- The directory one name below or above another. -/
def enter (d : Disk) (directory : Place) (name : String) :
    Except IoError Place := do
  let place ← below directory name
  match d.node? place with
  | some .directory => return place
  | some (.file _) => throw .notADirectory
  | none => throw .notFound

def walk (d : Disk) (names : List String) : Except IoError Place :=
  names.foldlM (enter d) []

/-- A path as names, and whether its end shows that a directory is meant. -/
structure Route where
  names : List String
  /-- The path ends in a slash. -/
  slashed : Bool
  /-- The path ends in a dot or two, or has no name at all. -/
  dotted : Bool

def route (path : String) : Except IoError Route :=
  if path.toList.contains '\x00' then .error .nulInName
  else if path.isEmpty then .error .notFound
  else if pathBound ≤ path.utf8ByteSize then .error .nameTooLong
  else
    let parts := Text.splitOn '/' path
    let names := parts.filter fun part => part != "" && part != "."
    let last := parts.getLast?.getD ""
    .ok ⟨names, last == "", last == "." || last == ".." || names.isEmpty⟩

/-- Makes the directory at the end of names; the one above it must exist. -/
def makeDirectory (d : Disk) (names : List String) : Except IoError Disk := do
  let above ← d.walk names.dropLast
  match names.getLast? with
  | none => throw .alreadyExists
  | some name =>
    let place ← below above name
    if (d.node? place).isSome then throw .alreadyExists
    return d.put place .directory

def hasDirectory (d : Disk) (names : List String) : Bool :=
  (d.walk names).isOk

/-- Makes the directory at the end of names and those above it, names being
given last to first. -/
def makeDirectories (d : Disk) : List String → Except IoError Disk
  | [] => .ok d
  | name :: above =>
    let names := (name :: above).reverse
    match d.makeDirectory names with
    | .ok d => .ok d
    | .error .notFound => do
      let d ← makeDirectories d above
      match d.makeDirectory names with
      | .ok d => return d
      | .error e => if d.hasDirectory names then return d else throw e
    | .error e => if d.hasDirectory names then .ok d else .error e

/-- Opens the file of a path for writing, making it when it does not exist. -/
def openFile (d : Disk) (r : Route) : Except IoError (Place × Disk) := do
  if r.dotted then
    let _ ← d.walk r.names
    throw .isADirectory
  let directory ← d.walk r.names.dropLast
  if r.slashed then throw .isADirectory
  let place ← below directory (r.names.getLast?.getD "")
  match d.node? place with
  | some .directory => throw .isADirectory
  | some (.file _) => return (place, d)
  | none => return (place, d.put place (.file []))

def read (d : Disk) (path : String) : Except IoError Bytes := do
  let r ← route path
  if r.dotted || r.slashed then
    let _ ← d.walk r.names
    throw .isADirectory
  let directory ← d.walk r.names.dropLast
  let place ← below directory (r.names.getLast?.getD "")
  match d.node? place with
  | some .directory => throw .isADirectory
  | some (.file contents) => return contents
  | none => throw .notFound

/-- Writes the file of a path as a whole, making it when it does not exist. -/
def write (d : Disk) (path : String) (contents : Bytes) :
    Except IoError Disk := do
  let (place, d) ← d.openFile (← route path)
  return d.put place (.file contents)

end Disk

/-- A file that is rewritten as a whole: the path it was opened by, its place,
and whether it is still open. -/
structure SnapshotFile where
  path : String
  place : Place
  isOpen : Bool
  deriving DecidableEq, Repr

namespace SnapshotFile

/-- Opens a file, making it and the directories above it when
they do not exist. -/
def openAt (d : Disk) (path : String) :
    Except IoError (SnapshotFile × Disk) := do
  let r ← Disk.route path
  let d ← d.makeDirectories r.names.dropLast.reverse
  let (place, d) ← d.openFile r
  return (⟨path, place, true⟩, d)

/-- Lets go of the file; nothing happens when that was done before. -/
def close (f : SnapshotFile) : SnapshotFile :=
  { f with isOpen := false }

end SnapshotFile

/-- A snapshot file with the offset at which its next access begins. -/
structure FileHandle where
  file : SnapshotFile
  offset : Nat
  deriving DecidableEq, Repr

namespace FileHandle

/-- Opens a file as `SnapshotFile.openAt` does; what it holds is kept. -/
def openAt (d : Disk) (path : String) : Except IoError (FileHandle × Disk) := do
  let (file, d) ← SnapshotFile.openAt d path
  return (⟨file, 0⟩, d)

/-- The file as the system has it, unless it was closed. -/
def opened (h : FileHandle) (d : Disk) : Except IoError OpenFile :=
  if h.file.isOpen then .ok ⟨(d.contents? h.file.place).getD [], h.offset⟩
    else .error .closed

/-- What becomes of the handle and of the disk when the file was changed. -/
def changed (h : FileHandle) (d : Disk) (o : OpenFile) : FileHandle × Disk :=
  ({ h with offset := o.offset }, d.put h.file.place (.file o.contents))

def load (h : FileHandle) (d : Disk) : Except IoError (Bytes × FileHandle) := do
  let (bytes, o) := (← h.opened d).load
  return (bytes, { h with offset := o.offset })

def save (h : FileHandle) (bytes : Bytes) (d : Disk) :
    Except IoError (FileHandle × Disk) := do
  return h.changed d ((← h.opened d).save bytes)

def clear (h : FileHandle) (d : Disk) : Except IoError (FileHandle × Disk) := do
  return h.changed d (← h.opened d).clear

def close (h : FileHandle) : FileHandle := { h with file := h.file.close }

/-!
Every access rewinds first, so it makes no difference where the offset stood.
-/

theorem load_eq (h : FileHandle) (d : Disk) :
    h.load d =
      if h.file.isOpen then
        .ok ((d.contents? h.file.place).getD [],
          ⟨h.file, ((d.contents? h.file.place).getD []).length⟩)
      else .error .closed := by
  unfold load opened
  split <;> simp [bind, Except.bind, pure, Except.pure]

theorem save_eq (h : FileHandle) (bytes : Bytes) (d : Disk) :
    h.save bytes d =
      if h.file.isOpen then
        .ok (⟨h.file, bytes.length⟩, d.put h.file.place (.file bytes))
      else .error .closed := by
  unfold save opened
  split <;> simp [changed, bind, Except.bind, pure, Except.pure]

theorem clear_eq (h : FileHandle) (d : Disk) :
    h.clear d =
      if h.file.isOpen then .ok (⟨h.file, 0⟩, d.put h.file.place (.file []))
      else .error .closed := by
  unfold clear opened
  split <;> simp [changed, bind, Except.bind, pure, Except.pure]

end FileHandle

namespace SnapshotFile

/-- The whole file; the offset is not kept from one access to the next. -/
def load (f : SnapshotFile) (d : Disk) : Except IoError Bytes :=
  Prod.fst <$> (FileHandle.mk f 0).load d

/-- Replaces the whole file. -/
def save (f : SnapshotFile) (bytes : Bytes) (d : Disk) : Except IoError Disk :=
  Prod.snd <$> (FileHandle.mk f 0).save bytes d

/-- Empties the file. -/
def clear (f : SnapshotFile) (d : Disk) : Except IoError Disk :=
  Prod.snd <$> (FileHandle.mk f 0).clear d

theorem load_eq (f : SnapshotFile) (d : Disk) :
    f.load d = if f.isOpen then .ok ((d.contents? f.place).getD [])
      else .error .closed := by
  rw [load, FileHandle.load_eq]
  cases f.isOpen <;> rfl

theorem save_eq (f : SnapshotFile) (bytes : Bytes) (d : Disk) :
    f.save bytes d =
      if f.isOpen then .ok (d.put f.place (.file bytes))
        else .error .closed := by
  rw [save, FileHandle.save_eq]
  cases f.isOpen <;> rfl

theorem clear_eq (f : SnapshotFile) (d : Disk) :
    f.clear d = if f.isOpen then .ok (d.put f.place (.file []))
      else .error .closed := by
  rw [clear, FileHandle.clear_eq]
  cases f.isOpen <;> rfl

end SnapshotFile

end Telemetry
