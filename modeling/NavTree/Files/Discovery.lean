import NavTree.Files.Disk

/-! # Finding navigation sources

A walk below a directory that follows links. Hidden directories and those that hold no sources by
convention are not entered, unless the walk starts there.
-/
namespace NavTree

/-- Directories that never hold sources worth compiling. -/
def sourcelessNames : List String := ["node_modules", "android", "ios", "target"]

def isSourceless (name : String) : Bool := name.startsWith "." || sourcelessNames.contains name

def defaultNames : List String := ["navigation.jsonnet", "navigation.json"]

/-- What a walk meets: a source, or an entry that it cannot follow. -/
inductive Finding where
  | source (path : String)
  | unreadable (path : String) (fault : FileFault)
  | loop (path ancestor : String)
deriving DecidableEq, Repr

namespace Finding

def source? : Finding → Option String
  | source path => some path
  | _ => none

def warning? : Finding → Option String
  | source _ => none
  | unreadable path fault =>
    some ("Skipping unreadable entry: IO error for operation on " ++ path ++ ": " ++ fault.message)
  | loop path ancestor =>
    some ("Skipping unreadable entry: File system loop found: " ++ path ++ " points to an ancestor "
      ++ ancestor)

end Finding

namespace Disk

/-- What a walk finds at a name in a directory. What is inside a directory behind the name is left to
`inside`. `around` lists the directories that the walk is in, with the paths it entered them by. -/
def visit (d : Disk) (names : List String)
    (inside : Location → String → List (Location × String) → List Finding) (loc : Location)
    (path : String) (around : List (Location × String)) (member : String × Entry) : List Finding :=
  let (name, e) := member
  let path' := Path.join path name
  let around' := (loc, path) :: around
  let file := if names.contains name then [Finding.source path'] else []
  match e with
  | .file _ => file
  | .directory => if isSourceless name then [] else inside (name :: loc) path' around'
  | .link _ =>
    match d.enter loc name with
    | .error fault => [.unreadable path' fault]
    | .ok ⟨_, none, _, _⟩ => [.unreadable path' .notFound]
    | .ok ⟨inner, some .directory, _, _⟩ =>
      match around'.lookup inner with
      | some ancestor => [.loop path' ancestor]
      | none => if isSourceless name then [] else inside inner path' around'
    | .ok _ => file

/-- The findings in a directory, and in those inside of it down to some depth. -/
def surveyBelow (d : Disk) (names : List String) :
    Nat → Location → String → List (Location × String) → List Finding
  | 0 => fun _ _ _ => []
  | fuel + 1 => fun loc path around =>
    (d.members loc).flatMap (d.visit names (d.surveyBelow names fuel) loc path around)

/-- The length of the longest location that something is at. -/
def deepest (d : Disk) : Nat := (d.entries.map (·.1.length)).max?.getD 0

/-- How deep a walk can get. It follows no link into a directory that it is in, so it follows at most
as many as there are entries, and without following one it only goes further inside. -/
def surveyDepth (d : Disk) : Nat := (d.entries.length + 1) * (d.deepest + 1)

def survey (d : Disk) (names : List String) (root : String) : List Finding :=
  match d.find .visit root with
  | .error fault => [.unreadable root fault]
  | .ok ⟨_, none, _, _⟩ => [.unreadable root .notFound]
  | .ok ⟨loc, some .directory, _, _⟩ => d.surveyBelow names d.surveyDepth loc root []
  | .ok _ =>
    if names.contains ((Path.fileName? root).getD root) then [.source root] else []

end Disk

def Finding.sources (found : List Finding) : List String :=
  (found.filterMap Finding.source?).mergeSort Path.le

end NavTree
