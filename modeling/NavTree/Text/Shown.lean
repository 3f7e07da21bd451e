import NavTree.Json.Printer
import NavTree.Text.Printable

/-! # Strings shown inside messages

A shown string stands between double quotes. Quotes, backslashes and the usual controls take a
backslash; every other character without a visible form of its own is written by its code point.
-/
namespace NavTree

def hexText (n : Nat) : String := String.ofList (Nat.toDigits 16 n)

def shownChar (c : Char) : String :=
  if c = '"' then "\\\""
  else if c = '\\' then "\\\\"
  else if c = '\n' then "\\n"
  else if c = '\r' then "\\r"
  else if c = '\t' then "\\t"
  else if c.toNat = 0 then "\\0"
  else if isPrintable c then c.toString
  else "\\u\x7b" ++ hexText c.toNat ++ "\x7d"

def shown (s : String) : String := "\"" ++ String.join (s.toList.map shownChar) ++ "\""

end NavTree
