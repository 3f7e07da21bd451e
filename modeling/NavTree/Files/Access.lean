import NavTree.Files.Disk

/-! # File operations

Each operation takes a path from the working directory and either succeeds or leaves the disk as
it is. Only the creation of nested directories may have made some of them before it fails, and a
file is created before it is filled: a medium that falls short leaves a part of its content.
-/
namespace NavTree

/-- A content of which only the first bytes arrive. -/
structure Shortage where
  taken : Nat
  fault : FileFault

/-- Whether the writing of a content at a place falls short, and where. -/
abbrev Medium := Location → ByteArray → Option Shortage

namespace Disk

variable (d : Disk)

def read (path : String) : Except FileFault ByteArray := do
  match (← d.find .visit path).entry with
  | some (.file content) => return content
  | some .directory => throw .isDirectory
  | some (.link _) => throw .tooManyLinks
  | none => throw .notFound

def isPresent (path : String) : Bool :=
  match d.find .visit path with
  | .ok spot => spot.entry.isSome
  | .error _ => false

/-- Makes an empty file, or empties the one that is there, and tells its place. A link is
followed. -/
def create (path : String) : Except FileFault (Location × Disk) := do
  let spot ← d.find .make path
  match spot.entry with
  | some (.file _) | none => return (spot.location, d.put spot.location (.file .empty))
  | some .directory => throw .isDirectory
  | some (.link _) => throw .tooManyLinks

/-- Writes to the file that stands at a place. -/
def fill (place : Location) (content : ByteArray) : Disk :=
  match d.at? place with
  | some (.file _) => d.put place (.file content)
  | _ => d

/-- Writes to the file that stands at a place what arrives there. -/
def fillOn (medium : Medium) (place : Location) (content : ByteArray) :
    Except FileFault Unit × Disk :=
  match medium place content with
  | none => (.ok (), d.fill place content)
  | some shortage => (.error shortage.fault, d.fill place (content.extract 0 shortage.taken))

/-- Creates a file and fills it, with nothing in between and no shortage. -/
def write (path : String) (content : ByteArray) : Except FileFault Disk := do
  let (place, created) ← d.create path
  return created.fill place content

def remove (path : String) : Except FileFault Disk := do
  let spot ← d.find .name path
  match spot.entry with
  | some .directory => throw .isDirectory
  | some _ => if spot.slashed then throw .notDirectory else return d.erase spot.location
  | none => throw .notFound

/-- Moves what a path names to another path. A file or a link replaces a file or a link, a directory
an empty directory. -/
def rename (source target : String) : Except FileFault Disk := do
  let old ← d.find .name source
  let new ← d.find .name target
  if !old.named || !new.named then throw .busy
  else match old.entry, new.entry with
    | none, _ => throw .notFound
    | some .directory, some (.file _) | some .directory, some (.link _) => throw .notDirectory
    | some .directory, _ =>
      if new.location = old.location then return d
      else if old.location.isSuffixOf new.location then throw .invalid
      else if (d.members new.location).isEmpty then
        return d.moveTree old.location new.location
      else throw .notEmpty
    | some e, there =>
      if old.slashed || new.slashed then throw .notDirectory
      else match there with
        | some .directory => throw .isDirectory
        | _ =>
          if new.location = old.location then return d
          else return (d.put new.location e).erase old.location

def makeDirectory (path : String) : Except FileFault Disk := do
  let spot ← d.find .name path
  match spot.entry with
  | some _ => throw .exists
  | none => return d.put spot.location .directory

def isDirectory (path : String) : Bool :=
  match d.find .visit path with
  | .ok ⟨_, some .directory, _, _⟩ => true
  | _ => false

/-- What an attempt to make a directory comes to, when a directory that is there will do as well. -/
def settle (path : String) (fault : FileFault) : Except FileFault Unit :=
  if d.isDirectory path then .ok () else .error fault

/-- Makes the first of some nested directories, and those around it that are missing. -/
def makeNested (d : Disk) : List String → Except FileFault Unit × Disk
  | [] => (.ok (), d)
  | path :: around =>
    match d.makeDirectory path with
    | .ok made => (.ok (), made)
    | .error .notFound =>
      match d.makeNested around with
      | (.error fault, d) => (.error fault, d)
      | (.ok (), d) =>
        match d.makeDirectory path with
        | .ok made => (.ok (), made)
        | .error fault => (d.settle path fault, d)
    | .error fault => (d.settle path fault, d)

def makeDirectories (path : String) : Except FileFault Unit × Disk :=
  d.makeNested (Path.ancestors path)

/-- The files below a directory, links to files and dangling links among them. Links to
directories are followed, up to a depth that only circles of links exceed. -/
def filesBelow (d : Disk) (loc : Location) (path : String) : Nat → List String
  | 0 => []
  | fuel + 1 =>
    (d.members loc).flatMap fun (name, _) =>
      let path := if path = "" then name else path ++ "/" ++ name
      match d.enter loc name with
      | .ok ⟨loc, some .directory, _, _⟩ => d.filesBelow loc path fuel
      | _ => [path]

def listing : List String :=
  (d.filesBelow [] "" (d.entries.length + 1)).mergeSort fun a b => decide (a ≤ b)

end Disk

end NavTree
