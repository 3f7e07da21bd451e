import NavTree.Files.Path
import NavTree.Text.Replace
import NavTree.Tree.Naming

/-! # File templates

The files that the settings of a tree ask for beside every screen. A template's title is its path
relative to the source.
-/
namespace NavTree

structure FileTemplate where
  title : String
  path : String
  content : String
deriving DecidableEq, Repr

namespace Screen

def fileTemplates (s : Screen) (base : String) : List FileTemplate :=
  (s.config.template.getD []).map fun (pattern, content) =>
    let title := s.importPath ++ "/" ++ interpolate pattern s.importSpecifier
    ⟨title, Path.join base title, interpolate content s.importSpecifier⟩

end Screen

def fileTemplates (screens : List Screen) (base : String) : List FileTemplate :=
  screens.flatMap (·.fileTemplates base)

end NavTree
