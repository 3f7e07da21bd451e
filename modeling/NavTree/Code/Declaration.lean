import NavTree.Script.Basic
import NavTree.Text.Literal
import NavTree.Tree.Value

/-! # Declarations of generated source

A generated source file is a list of declarations, one per line.
-/
namespace NavTree

inductive Declaration where
  | namespaceImport (name source : String)
  | namedImport (symbols : List String) (source : String)
  | constant (exported : Bool) (name value : String)
deriving DecidableEq, Repr

namespace Declaration

def text : Declaration → String
  | namespaceImport name source => "import * as " ++ name ++ " from " ++ moduleLiteral source ++ ";"
  | namedImport symbols source =>
    "import \x7b " ++ ", ".intercalate symbols ++ " \x7d from " ++ moduleLiteral source ++ ";"
  | constant exported name value =>
    (if exported then "export " else "") ++ "const " ++ name ++ " = " ++ value ++ ";"

def constantName? : Declaration → Option String
  | constant _ name _ => some name
  | _ => none

end Declaration

def sourceText (ds : List Declaration) : String := "\n".intercalate (ds.map Declaration.text)

/-- Named imports by module. Modules and the symbols of a module stand in the order of their first
appearance, each once. -/
structure Imports where
  modules : List (String × List String)
deriving DecidableEq, Repr

namespace Imports

def empty : Imports := ⟨[]⟩

/-- Appends the symbol to its module unless it is there, and the module unless it is there. -/
def addTo (i : Import) : List (String × List String) → List (String × List String)
  | [] => [(i.source, [i.symbol])]
  | (source, symbols) :: rest =>
    if source = i.source then
      (source, if symbols.contains i.symbol then symbols else symbols ++ [i.symbol]) :: rest
    else (source, symbols) :: addTo i rest

def add (is : Imports) (i : Import) : Imports := ⟨addTo i is.modules⟩

def ofList (l : List Import) : Imports := l.foldl add empty

def declarations (is : Imports) : List Declaration := is.modules.map fun m => .namedImport m.2 m.1

end Imports

inductive Payload where
  | source (dialect : Dialect) (joinsParams : Bool) (declarations : List Declaration)
  | text (content : String)
deriving DecidableEq, Repr

/-- A generated file. `joinsParams` asks for the removal of blank lines before nested `params` in
the formatted text. -/
structure Artifact where
  fileName : String
  payload : Payload
deriving DecidableEq, Repr

def Artifact.rawText (a : Artifact) : String :=
  match a.payload with
  | .source _ _ ds => sourceText ds
  | .text content => content

end NavTree
