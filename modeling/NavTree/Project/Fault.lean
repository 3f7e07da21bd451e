import NavTree.Files.Fault
import NavTree.Json.Parser
import NavTree.Outline.Fault

/-! # Faults of a project

Why a source is not compiled, or a file not made.
-/
namespace NavTree

/-- Why the content of a source is no navigation tree. -/
inductive SourceFault where
  | json (e : JsonError)
  | tree (fault : DecodeFault)
deriving DecidableEq, Repr

def SourceFault.message : SourceFault → String
  | json e => e.message
  | tree fault => fault.message

inductive ProjectFault where
  | invalidSource (path : String) (fault : SourceFault)
  | toolFailed (tool reason : String)
  | toolMissing (tool : String)
  | promptCancelled
  | invalidArtifact (path : String)
  | file (path : String) (fault : FileFault)
deriving DecidableEq, Repr

def ProjectFault.message : ProjectFault → String
  | invalidSource path fault => path ++ ": invalid navigation tree: " ++ fault.message
  | toolFailed tool reason => tool ++ " failed: " ++ reason
  | toolMissing tool => tool ++ ": command not found"
  | promptCancelled => "prompt cancelled"
  | invalidArtifact path => path ++ ": generated source is not valid:"
  | file path fault => path ++ ": " ++ fault.message

end NavTree
