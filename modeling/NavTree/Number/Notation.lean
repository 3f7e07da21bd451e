import NavTree.Number.Double

/-! # Number notations

How the digits of a double are laid out. `Double.text` writes plain decimals between `1e-5` and
`1e16`, always with a point, and a signed exponent elsewhere. `Double.compact` is the layout of
number literals in generated source, which drops every character it can.
-/
namespace NavTree

def zeros (n : Nat) : String := String.ofList (List.replicate n '0')

/-- Text without its trailing `n` characters, and those characters. -/
def splitEnd (s : String) (n : Nat) : String × String :=
  let cs := s.toList
  (String.ofList (cs.take (cs.length - n)), String.ofList (cs.drop (cs.length - n)))

namespace Decimal

/-- Exponent of the leading digit. -/
def leading (d : Decimal) : Int := d.exponent + ((toString d.digits).length : Int) - 1

def plain (d : Decimal) : String :=
  let ds := toString d.digits
  if 0 ≤ d.exponent then ds ++ zeros d.exponent.toNat
  else if 0 ≤ d.leading then
    let (whole, fraction) := splitEnd ds (-d.exponent).toNat
    whole ++ "." ++ fraction
  else "0." ++ zeros (-d.leading - 1).toNat ++ ds

def scientific (d : Decimal) : String :=
  let (whole, fraction) := splitEnd (toString d.digits) ((toString d.digits).length - 1)
  let point := if fraction.isEmpty then "" else "." ++ fraction
  let sign := if d.leading < 0 then "-" else "+"
  whole ++ point ++ "e" ++ sign ++ toString d.leading.natAbs

end Decimal

namespace Double

/-- Shortest text: plain for a leading exponent from -5 to 15, always with a point, scientific
otherwise. The sign of zero is kept. -/
def text (x : Double) : String :=
  let sign := if x.negative then "-" else ""
  if x.mantissa = 0 then sign ++ "0.0"
  else
    let d := x.shortest
    if -5 ≤ d.leading ∧ d.leading < 16 then
      sign ++ d.plain ++ (if 0 ≤ d.exponent then ".0" else "")
    else sign ++ d.scientific

/-- The absolute value of a double without a fraction. -/
def wholeValue (x : Double) : Nat :=
  x.mantissa * Nat.pow 2 x.exponent.toNat / Nat.pow 2 (-x.exponent).toNat

/-- The shortest digits in the usual notation of source code: plain from `1e-6` up to `1e21`, with
no zero in front of a point, scientific elsewhere. -/
def literal (x : Double) : String :=
  let d := x.shortest
  if d.leading < -6 ∨ 21 ≤ d.leading then String.ofList (d.scientific.toList.filter (· ≠ '+'))
  else if d.leading < 0 then "." ++ zeros (-d.leading - 1).toNat ++ toString d.digits
  else d.plain

/-- Literal of the absolute value in source code: the usual notation, unless hexadecimal digits are
shorter, or else the bare digits with an exponent. -/
def compact (x : Double) : String :=
  if x.mantissa = 0 then "0"
  else
    let d := x.shortest
    let hexadecimal := "0x" ++ String.ofList (Nat.toDigits 16 x.wholeValue)
    let scaled := toString d.digits ++ "e" ++ toString d.exponent
    if 0 ≤ d.exponent ∧ hexadecimal.length < x.literal.length then hexadecimal
    else if scaled.length < x.literal.length then scaled
    else x.literal

end Double

end NavTree
