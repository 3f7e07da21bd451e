import NavTree.Files.Fault
import NavTree.Files.Path

/-! # Disks

A disk maps locations to directories, files and symbolic links. Locations list names from the
inside out, so a location without its first name is the directory around it, and no names are the
working directory. The directories around that one always exist, and nothing is known to be in
them but what has been put there. Paths are resolved to locations; those of links along the way are
followed.
-/
namespace NavTree

/-- Names of a place on the disk, innermost first. -/
abbrev Location := List String

inductive Entry where
  | directory
  | file (content : ByteArray)
  | link (target : String)
deriving Inhabited

/-- What stands where. Owners and permissions are left out, so whatever stands somewhere may be read
and written, and no file operation is denied: `FileFault.denied` only keeps programs from being
started. -/
structure Disk where
  entries : List (Location × Entry)

namespace Disk

def empty : Disk := ⟨[]⟩

/-- The working directory, those around it, and the root of all paths. -/
def isOuter (loc : Location) : Bool := loc.all fun name => name = ".." || name = "/"

/-- The directory around a directory. The root is around itself. -/
def outward (loc : Location) : Location :=
  if loc = ["/"] then loc else if isOuter loc then ".." :: loc else loc.tail

def at? (d : Disk) (loc : Location) : Option Entry :=
  if isOuter loc then some .directory else d.entries.lookup loc

def putEntry (loc : Location) (e : Entry) : List (Location × Entry) → List (Location × Entry)
  | [] => [(loc, e)]
  | (l, old) :: rest => if l = loc then (loc, e) :: rest else (l, old) :: putEntry loc e rest

def put (d : Disk) (loc : Location) (e : Entry) : Disk := ⟨putEntry loc e d.entries⟩

def erase (d : Disk) (loc : Location) : Disk := ⟨d.entries.filter (·.1 ≠ loc)⟩

theorem lookup_putEntry (loc l : Location) (e : Entry) (es : List (Location × Entry)) :
    (putEntry loc e es).lookup l = if l = loc then some e else es.lookup l := by
  induction es with
  | nil => simp only [putEntry, List.lookup_cons, List.lookup_nil]; grind
  | cons x es ih =>
    obtain ⟨k, old⟩ := x
    simp only [putEntry]
    split <;> simp only [List.lookup_cons, ih] <;> grind

/-- Only the location written to changes; outer directories cannot be replaced. -/
theorem at?_put (d : Disk) (loc l : Location) (e : Entry) (h : isOuter loc = false) :
    (d.put loc e).at? l = if l = loc then some e else d.at? l := by
  simp only [at?, put, lookup_putEntry]
  grind

theorem lookup_filter_ne (loc l : Location) (es : List (Location × Entry)) :
    (es.filter (·.1 ≠ loc)).lookup l = if l = loc then none else es.lookup l := by
  induction es with
  | nil => simp
  | cons x es ih =>
    obtain ⟨k, old⟩ := x
    rw [List.filter_cons]
    split <;> simp only [List.lookup_cons, ih] <;> grind

theorem at?_erase (d : Disk) (loc l : Location) (h : isOuter loc = false) :
    (d.erase loc).at? l = if l = loc then none else d.at? l := by
  simp only [at?, erase, lookup_filter_ne]
  grind

/-- The names in a directory and what they stand for. -/
def members (d : Disk) (loc : Location) : List (String × Entry) :=
  d.entries.filterMap fun (l, e) =>
    match l with
    | [] => none
    | name :: outer => if outer = loc then some (name, e) else none

/-- Moves a directory and all that is in it to a location where at most an empty one is. -/
def moveTree (d : Disk) (loc loc' : Location) : Disk :=
  ⟨(d.erase loc').entries.map fun (l, e) =>
    if loc.isSuffixOf l then (l.take (l.length - loc.length) ++ loc', e) else (l, e)⟩

def longestName : Nat := 255

/-- The first length that is too long for a path. -/
def pathLimit : Nat := 4096

/-- Links that one path may pass. -/
def linkBudget : Nat := 40

inductive Purpose where
  /-- What it leads to. -/
  | visit
  /-- What it leads to, or the place of a new file. -/
  | make
  /-- The name at its end, whatever that stands for. -/
  | name
deriving DecidableEq, Repr

/-- Where a path leads to. `named` says that it ends in a name and not in dots, `slashed` that a
slash ends it. -/
structure Spot where
  location : Location
  entry : Option Entry
  named : Bool
  slashed : Bool
deriving Inhabited

/-- The name at the end of a path. A link is left to `jump` unless the name itself is wanted. A
slash promises a directory, and only directories that are there satisfy it. -/
def endAt (d : Disk) (purpose : Purpose) (slashed : Bool)
    (jump : Location → Path.Route → Except FileFault Spot) (loc : Location) (name : String) :
    Except FileFault Spot :=
  let spot : Spot := ⟨name :: loc, d.at? (name :: loc), true, slashed⟩
  if purpose = .name then .ok spot
  else if purpose = .make ∧ slashed then .error .isDirectory
  else match spot.entry with
    | some (.file _) => if slashed then .error .notDirectory else .ok spot
    | some (.link target) =>
      let route := Path.route target
      jump loc { route with slashed := route.slashed || slashed }
    | _ => .ok spot

/-- Walks the parts of a path from a directory. All but the last must lead to directories; a link
on the way is left to `jump`. -/
def descend (d : Disk) (purpose : Purpose) (slashed : Bool)
    (jump : Location → Path.Route → Except FileFault Spot) :
    Location → List PathPart → Except FileFault Spot
  | loc, [] => .ok ⟨loc, some .directory, false, slashed⟩
  | _, .root :: rest => descend d purpose slashed jump ["/"] rest
  | loc, .here :: rest => descend d purpose slashed jump loc rest
  | loc, .up :: rest => descend d purpose slashed jump (outward loc) rest
  | loc, .name s :: rest =>
    if s.utf8ByteSize > longestName then .error .nameTooLong
    else if rest.isEmpty then d.endAt purpose slashed jump loc s
    else match d.at? (s :: loc) with
      | none => .error .notFound
      | some .directory => descend d purpose slashed jump (s :: loc) rest
      | some (.file _) => .error .notDirectory
      | some (.link target) => jump loc ⟨(Path.route target).parts ++ rest, slashed⟩

/-- Resolves a route from a directory, passing at most the given number of links. -/
def resolve (d : Disk) (purpose : Purpose) : Nat → Location → Path.Route → Except FileFault Spot
  | 0 => fun _ _ => .error .tooManyLinks
  | budget + 1 => fun loc route =>
    d.descend purpose route.slashed (d.resolve purpose budget) loc route.parts

def hasZeroByte (s : String) : Bool := s.toList.any (·.toNat == 0)

/-- Where a path leads to from the working directory. -/
def find (d : Disk) (purpose : Purpose) (path : String) : Except FileFault Spot :=
  if hasZeroByte path then .error .zeroByte
  else if path = "" then .error .notFound
  else if pathLimit ≤ path.utf8ByteSize then .error .nameTooLong
  else d.resolve purpose (linkBudget + 1) [] (Path.route path)

def enter (d : Disk) (loc : Location) (name : String) : Except FileFault Spot :=
  d.resolve .visit (linkBudget + 1) loc ⟨[.name name], false⟩

end Disk

end NavTree
