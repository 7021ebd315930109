import Acceptor.Sorted.Map
import Acceptor.Text.Utf8

/-!
# File systems

A file system is a finite map from locations to what is there, together with a working directory
from which relative paths start.  A path is followed name by name, so a missing directory, a file in
the place of a directory, a directory that may not be searched and an overlong name are each met in
the order in which they stand in the path.  A file is at one location and may have other names:
links hold a path that is followed in their place, and an alias is a second name like the first.
Paths are followed through both, so two paths lead to the same file exactly when they lead to the
same location.
-/

namespace Acceptor

/-- The names on the way from the root. -/
abbrev Location := List Text

/-! ## What is at a location -/

/-- What a file is kept on.  It takes only so many bytes if it has a limit, and a device may take
bytes without keeping them; it is written in blocks of a certain size. -/
structure Medium where
  room : Option Nat := none
  keeps : Bool := true
  block : Nat := 4096
deriving DecidableEq, Repr

namespace Medium

/-- What a medium takes of the given bytes: the first of them, as far as it has room. -/
def taken (m : Medium) (bytes : Bytes) : Bytes := m.room.elim bytes bytes.take

/-- What is on a medium after the given bytes have been written to it. -/
def kept (m : Medium) (bytes : Bytes) : Bytes := if m.keeps then m.taken bytes else []

end Medium

structure File where
  content : Bytes := []
  readable : Bool := true
  writable : Bool := true
  medium : Medium := {}
deriving DecidableEq, Repr

/-- Files that are made in a directory are on its medium. -/
structure Directory where
  readable : Bool := true
  writable : Bool := true
  searchable : Bool := true
  medium : Medium := {}
deriving DecidableEq, Repr

inductive Node where
  | file (f : File)
  | directory (d : Directory)
  | link (target : Text)
  | alias (place : Location)
deriving DecidableEq, Repr

inductive FileError where
  | notFound
  | notDirectory
  | isDirectory
  | nameTooLong
  | denied
  | tooManyLinks
  | nullInPath
deriving DecidableEq, Repr

namespace FileError

/-- The number and the wording of an error of the system.  A path that cannot be passed to
the system at all has neither. -/
def description? : FileError → Option (Nat × Text)
  | notFound => some (2, "No such file or directory".toList)
  | notDirectory => some (20, "Not a directory".toList)
  | isDirectory => some (21, "Is a directory".toList)
  | nameTooLong => some (36, "File name too long".toList)
  | denied => some (13, "Permission denied".toList)
  | tooManyLinks => some (40, "Too many levels of symbolic links".toList)
  | nullInPath => none

def message (path : Text) (e : FileError) : Text :=
  match e.description? with
  | some (number, wording) =>
      "[Errno ".toList ++ Text.ofNat number ++ "] ".toList ++ wording ++ ": ".toList ++
        Text.quoted path
  | none => "embedded null byte".toList

end FileError

structure FileSystem where
  nodes : SortedMap Location Node
  workingDirectory : Location
  root : Directory := {}
deriving DecidableEq

namespace FileSystem

/-- What is at a location.  The root is a directory without being listed. -/
def nodeAt (fs : FileSystem) : Location → Option Node
  | [] => some (.directory fs.root)
  | l => fs.nodes.get? l

/-- The file at a location. -/
def fileAt? (fs : FileSystem) (l : Location) : Option File :=
  match fs.nodeAt l with
  | some (.file f) => some f
  | _ => none

/-- The content of a file, and no bytes where there is no file. -/
def contentAt (fs : FileSystem) (l : Location) : Bytes := (fs.fileAt? l).elim [] File.content

/-- What the file at a location is kept on. -/
def mediumAt (fs : FileSystem) (l : Location) : Medium := (fs.fileAt? l).elim {} File.medium

def put (fs : FileSystem) (l : Location) (n : Node) : FileSystem :=
  { fs with nodes := fs.nodes.insert l n }

theorem nodeAt_put {fs : FileSystem} {l : Location} (h : l ≠ []) (n : Node) (j : Location) :
    (fs.put l n).nodeAt j = if j = l then some n else fs.nodeAt j := by
  cases j with
  | nil => simp [nodeAt, put, Ne.symm h]
  | cons name names => simp [nodeAt, put]

/-- The file system with a directory at every location on the way to the given one. -/
def makeDirectories (fs : FileSystem) (l : Location) : FileSystem :=
  (List.range l.length).foldl (fun fs n ↦ fs.put (l.take (n + 1)) (.directory {})) fs

/-- An empty file system in which the working directory exists. -/
def fresh (workingDirectory : Location) : FileSystem :=
  { nodes := .empty, workingDirectory : FileSystem }.makeDirectories workingDirectory

/-- Something put below the working directory, with the directories that lead to it. -/
def install (fs : FileSystem) (path : Text) (n : Node) : FileSystem :=
  let l := fs.workingDirectory ++ path.splitOn '/'
  (fs.makeDirectories l.dropLast).put l n

/-! ## Paths -/

def byteLength (t : Text) : Nat := (Utf8.encode t).length

/-- The longest name that a directory takes, in bytes. -/
def maxName : Nat := 255

/-- The longest path that the system takes, in bytes. -/
def maxPath : Nat := 4095

/-- The longest chain of links that the system follows. -/
def maxLinks : Nat := 40

/-- Where a path starts that is met in a directory. -/
def origin (directory : Location) (path : Text) : Location :=
  if path.head? = some '/' then [] else directory

/-- Where a name leads: to a location, or along the path of a link. -/
inductive Turn where
  | to (l : Location)
  | along (target : Text)

/-- Where a name leads from a location, which has to be a directory. -/
def turn (fs : FileSystem) (l : Location) (name : Text) : Except FileError Turn :=
  match fs.nodeAt l with
  | none => .error .notFound
  | some (.directory d) =>
      if name = [] then .ok (.to l)
      else if !d.searchable then .error .denied
      else if name = ['.'] then .ok (.to l)
      else if name = ['.', '.'] then .ok (.to l.dropLast)
      else if maxName < byteLength name then .error .nameTooLong
      else
        match fs.nodeAt (l ++ [name]) with
        | some (.link target) => .ok (.along target)
        | some (.alias place) => .ok (.to place)
        | _ => .ok (.to (l ++ [name]))
  | some _ => .error .notDirectory

/-- The location that a list of names leads to.  Only the last name may be missing there.  What
a link does is given: it is met in a directory, with its path and the names after it. -/
def walk (fs : FileSystem) (jump : Location → Text → List Text → Except FileError Location)
    (l : Location) : List Text → Except FileError Location
  | [] => .ok l
  | name :: more =>
      match fs.turn l name with
      | .error e => .error e
      | .ok (.to k) => fs.walk jump k more
      | .ok (.along target) => jump l target more

/-- The location that a list of names leads to through no more than the given number of links. -/
def follow (fs : FileSystem) : Nat → Location → List Text → Except FileError Location
  | 0 => fs.walk fun _ _ _ ↦ .error .tooManyLinks
  | n + 1 => fs.walk fun l target more ↦
      fs.follow n (origin l target) (target.splitOn '/' ++ more)

/-- The location of a path. -/
def locate (fs : FileSystem) (path : Text) : Except FileError Location :=
  if '\x00' ∈ path then .error .nullInPath
  else if path = [] then .error .notFound
  else if maxPath < byteLength path then .error .nameTooLong
  else fs.follow maxLinks (origin fs.workingDirectory path) (path.splitOn '/')

/-! ## Opening -/

/-- The location of a file that can be read. -/
def openToRead (fs : FileSystem) (path : Text) : Except FileError Location := do
  let l ← fs.locate path
  match fs.nodeAt l with
  | some (.file f) => if f.readable then .ok l else .error .denied
  | some (.directory d) => .error (if d.readable then .isDirectory else .denied)
  | _ => .error .notFound

/-- The file at a location that can be written: the one that is there, or else a new one in
its directory. -/
def fileToWrite (fs : FileSystem) (l : Location) : Except FileError File :=
  match fs.nodeAt l with
  | some (.file f) => if f.writable then .ok f else .error .denied
  | some (.directory _) => .error .isDirectory
  | some _ => .error .notFound
  | none =>
      match fs.nodeAt l.dropLast with
      | some (.directory d) =>
          if d.writable && d.searchable then .ok { medium := d.medium } else .error .denied
      | _ => .error .notFound

/-- The location of a file that can be written, which is there and empty from then on. -/
def openToWrite (fs : FileSystem) (path : Text) : Except FileError (Location × FileSystem) := do
  let l ← fs.locate path
  let f ← fs.fileToWrite l
  return (l, fs.put l (.file { f with content := [] }))

/-- The file at a location after bytes have been written to it from its beginning. -/
def fill (fs : FileSystem) (l : Location) (bytes : Bytes) : FileSystem :=
  match fs.fileAt? l with
  | some f => fs.put l (.file { f with content := f.medium.kept bytes })
  | none => fs

/-! ## Changes -/

/-- The files of the second system whose content the first one does not have. -/
def changes (before after : FileSystem) : List (Location × Bytes) :=
  after.nodes.entries.filterMap fun (l, n) ↦
    match n with
    | .file f => if before.nodeAt l = some n then none else some (l, f.content)
    | _ => none

/-- A location as a path from the working directory, if it is below that. -/
def relative? (fs : FileSystem) (l : Location) : Option Text :=
  if fs.workingDirectory.isPrefixOf l then
    some (['/'].intercalate (l.drop fs.workingDirectory.length))
  else none

end FileSystem

end Acceptor
