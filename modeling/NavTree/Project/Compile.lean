import NavTree.Code.Component
import NavTree.Code.Format
import NavTree.Code.Graph
import NavTree.Code.Routes
import NavTree.Code.Template
import NavTree.Project.Install
import NavTree.Tree.Normal

/-! # Compiling a source

A source is read, made a tree, and turned into three files beside it. All of them are rendered
before one is installed.
-/
namespace NavTree

def Tree.artifacts (t : Tree) : List Artifact :=
  [t.flatten.component, t.flatten.routes, graph t.navigators]

structure Compiled where
  files : List Rendered
  templates : List FileTemplate

structure FileReport where
  source : String
  written : List (String × WriteOutcome)
  templates : List FileTemplate

def imageName : String := "navigation.gen.svg"

namespace Job

/-- What an artifact is installed as. Params are joined in what the formatter has laid out. -/
def render (directory : String) (a : Artifact) : Job Rendered := do
  let path := Path.join directory a.fileName
  match a.payload with
  | .text content => return ⟨path, content⟩
  | .source dialect joinsParams ds =>
    match ← Task.perform (.format dialect (sourceText ds)) with
    | some s => return ⟨path, if joinsParams then joinNestedParams s else s⟩
    | none => throw (.invalidArtifact path)

def compileTree (source : String) (raw : Json) : Job Compiled := do
  match Tree.ofJson raw with
  | .error fault => throw (.invalidSource source (.tree fault))
  | .ok tree => do
    let flat := tree.flatten
    flat.routeWarnings.forM fun warning => (Task.note .warn .routes warning : Task Unit)
    let directory := Path.outputDirectory source
    let files ← tree.artifacts.mapM (render directory)
    return ⟨files, fileTemplates flat.screens directory⟩

/-- Compiles a source and installs its files; then draws the graph, if that is asked for. -/
def compileFile (drawsGraph : Bool) (source : String) : Job FileReport := do
  let raw ← readSource source
  let compiled ← compileTree source raw
  let written ← persist compiled.files
  Task.note .info .pipeline "NavigationBuilder: done"
  Task.note .info .pipeline "RoutesBuilder: done"
  if drawsGraph then
    let directory := Path.outputDirectory source
    let output := Path.join directory imageName
    renderGraph (Path.join directory "navigation.gen.dot") output
    Task.note .info .pipeline ("GraphBuilder: done, file exported to " ++ output)
  return ⟨source, written, compiled.templates⟩

end Job

end NavTree
