/-!
Numbers as they are written on a command line: decimal digits after an optional sign. A number
that must not be negative takes no minus sign, not even before zero.
-/
namespace LineStore.CommandLine.Numeral

/-- The number that decimal digits spell; there must be one digit at least. -/
def digits? (text : List Char) : Option Nat :=
  if text ≠ [] ∧ text.all Char.isDigit then
    some (text.foldl (fun value digit => 10 * value + (digit.toNat - '0'.toNat)) 0)
  else none

/-- The number that digits after an optional plus sign spell. -/
def natural? : List Char → Option Nat
  | '+' :: text => digits? text
  | text => digits? text

/-- The number that digits after an optional sign spell. -/
def integer? : List Char → Option Int
  | '-' :: text => (digits? text).map fun value => -(value : Int)
  | text => (natural? text).map fun value => (value : Int)

/-- A port: an integer from 0 to 65535. -/
def port? (text : String) : Option UInt16 :=
  match integer? text.toList with
  | some number => if 0 ≤ number ∧ number < 65536 then some (UInt16.ofNat number.toNat) else none
  | none => none

/-- A count of milliseconds: a natural number below 2 to the 64th. -/
def milliseconds? (text : String) : Option UInt64 :=
  match natural? text.toList with
  | some count => if count < 18446744073709551616 then some (UInt64.ofNat count) else none
  | none => none

end LineStore.CommandLine.Numeral
