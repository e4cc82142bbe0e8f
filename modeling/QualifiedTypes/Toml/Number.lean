import QualifiedTypes.Toml.Text
import QualifiedTypes.Toml.Value

/-!
# TOML numbers and dates

Integers are decimal, or hexadecimal, octal or binary behind a base mark, and fit into 64 bits.  Digits
may be grouped by single underscores.
-/

namespace QualifiedTypes.Toml.Reader

/-- Read digits of a class, grouped by single underscores. -/
def digits (p : Char → Bool) : Reader (List Char) := do
  let first ← satisfying p
  let rest ← many (satisfying p <|> (do char '_'; satisfying p))
  return first :: rest

/-- Read an optional sign, and whether it is a minus. -/
def sign : Reader Bool := (do char '-'; return true) <|> (do char '+'; return false) <|> pure false

/-- Read a decimal number without superfluous zeros at the front. -/
def decimalDigits : Reader (List Char) := do
  match ← peek? with
  | some '0' => do
    char '0'
    return ['0']
  | _ => digits Char.isDigit

/-- Whether a number fits into 64 bits with a sign. -/
def fitsWord (n : Int) : Bool := -9223372036854775808 ≤ n && n ≤ 9223372036854775807

/-- Accept a number that fits into 64 bits. -/
def word (n : Int) : Reader Value := if fitsWord n then return .integer n else failure

/-- Read an integer behind a base mark. -/
def based (mark : String) (base : Nat) (p : Char → Bool) : Reader Value := do
  text mark
  word (ofDigits base (← digits p))

/-- Read a decimal integer. -/
def decimal : Reader Value := do
  let negative ← sign
  let n : Int := ofDigits 10 (← decimalDigits)
  word (if negative then -n else n)

/-- Read an integer. -/
def integer : Reader Value :=
  based "0x" 16 isHexDigit <|> based "0o" 8 (fun c => '0' ≤ c && c ≤ '7') <|>
    based "0b" 2 (fun c => c == '0' || c == '1') <|> decimal

/-- A decimal number, by the digits before and after the point and the exponent. -/
structure Decimal where
  whole : List Char
  fraction : List Char
  exponent : Int

/-- The least number that rounds to infinity in double precision: halfway between the greatest double and
the next power of two. -/
def overflowLimit : Nat := ((1 <<< 54) - 1) <<< 970

/-- The number of digits of `overflowLimit`. -/
def overflowPlaces : Nat := 309

/-- Whether a decimal number rounds to infinity in double precision.  Only its first digits are looked at,
so that a great exponent costs nothing. -/
def Decimal.overflows (d : Decimal) : Bool :=
  let digits := (d.whole ++ d.fraction).dropWhile (· == '0')
  let places : Int := digits.length - d.fraction.length + d.exponent
  let leading := (digits ++ List.replicate overflowPlaces '0').take overflowPlaces
  !digits.isEmpty && (overflowPlaces < places ||
    places == overflowPlaces && overflowLimit ≤ ofDigits 10 leading)

/-- Read an exponent. -/
def exponent : Reader Int := do
  let _ ← satisfying fun c => c == 'e' || c == 'E'
  let negative ← sign
  let n : Int := ofDigits 10 (← digits Char.isDigit)
  return if negative then -n else n

/-- Read a fraction. -/
def fraction : Reader (List Char) := do
  char '.'
  digits Char.isDigit

/-- Read a number with a fraction, an exponent or both. -/
def fractional : Reader Decimal := do
  let whole ← decimalDigits
  (do return ⟨whole, [], ← exponent⟩) <|> (do
    let f ← fraction
    let e ← maybe exponent
    return ⟨whole, f, e.getD 0⟩)

/-- Read a floating-point number.  A number may fall below the least double, but not rise above the
greatest; infinity has a spelling of its own. -/
def float : Reader Value := do
  let negative ← sign
  (do
    let d ← fractional
    if d.overflows && !negative then failure else return .float) <|>
  (do text "inf"; return .float) <|>
  (do text "nan"; return .float)

/-! ## Dates and times -/

/-- Read a number of two digits within bounds. -/
def twoDigits (least greatest : Nat) : Reader Nat := do
  let n := ofDigits 10 (← exactly Char.isDigit 2)
  if least ≤ n ∧ n ≤ greatest then return n else failure

/-- The number of days of a month. -/
def daysIn (year month : Nat) : Nat :=
  if month = 2 then if year % 4 = 0 ∧ (year % 100 ≠ 0 ∨ year % 400 = 0) then 29 else 28
  else if month = 4 ∨ month = 6 ∨ month = 9 ∨ month = 11 then 30
  else 31

/-- Read a day of the calendar. -/
def date : Reader Unit := do
  let year := ofDigits 10 (← exactly Char.isDigit 4)
  char '-'
  let month ← twoDigits 1 12
  char '-'
  let _ ← twoDigits 1 (daysIn year month)

/-- Read a time of day. -/
def time : Reader Unit := do
  let _ ← twoDigits 0 23
  char ':'
  let _ ← twoDigits 0 59
  char ':'
  let _ ← twoDigits 0 60
  let _ ← maybe (do char '.'; run₁ Char.isDigit)

/-- Read a distance from universal time. -/
def zone : Reader Unit :=
  (do let _ ← satisfying fun c => c == 'Z' || c == 'z') <|> (do
    let _ ← satisfying fun c => c == '+' || c == '-'
    let _ ← twoDigits 0 23
    char ':'
    let _ ← twoDigits 0 59)

/-- Read a date, a time of day, or both. -/
def moment : Reader Unit :=
  (do
    date
    let _ ← maybe (do
      let _ ← satisfying fun c => c == 'T' || c == 't' || c == ' '
      time
      maybe zone)) <|> time

/-- Read a date or time, and keep its spelling. -/
def datetime : Reader Value := fun cs => do
  let (_, rest) ← moment cs
  return (.datetime (String.ofList (cs.take (cs.length - rest.length))), rest)

/-- Read a truth value. -/
def boolean : Reader Value :=
  (do text "true"; return .boolean true) <|> (do text "false"; return .boolean false)

end QualifiedTypes.Toml.Reader
