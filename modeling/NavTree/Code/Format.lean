import NavTree.Code.Declaration
import NavTree.Files.Path
import NavTree.Script.Parser
import NavTree.Script.Printer
import NavTree.Text.Replace

/-! # Formatted sources

Generated sources are read and written again in one layout, so a source that cannot be read is
noticed before it is installed. Files made from user templates are only formatted if they can be.
-/
namespace NavTree

/-- The source in one layout, if it can be read. -/
abbrev Formatter := Dialect → String → Option String

/-- Reads and prints sources as far as this library knows their language. -/
def formatted? : Formatter := fun dialect source =>
  (Script.parse? dialect source).map (Script.text dialect)

/-- The dialect that the extension of a path stands for. -/
def dialectOf? (path : String) : Option Dialect :=
  match Path.extension? path with
  | some extension =>
    if extension ∈ ["tsx", "jsx"] then some .tsx
    else if extension ∈ ["ts", "js", "mts", "cts"] then some .ts
    else none
  | none => none

/-- Formats by the extension of the path. Anything else, and what cannot be read, stays as it is. -/
def Formatter.apply (format : Formatter) (path source : String) : String :=
  match dialectOf? path with
  | some dialect => (format dialect source).getD source
  | none => source

def formatIfPossible : String → String → String := Formatter.apply formatted?

end NavTree
