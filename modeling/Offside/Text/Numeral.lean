import Offside.Text.Digit
import Offside.Text.Quoted

/-!
# Numerals

Reading whole numbers from decimal digits of any script, and writing them. Both
directions refuse numbers of more than 4300 digits, counting leading zeros when
reading.
-/

namespace Offside.Text

/-- The greatest number of digits that is read or written. -/
def numeralLimit : Nat := 4300

/-- Why a number was not read or not written. -/
inductive NumeralError where
  /-- The text starts with this many decimal digits, more than the limit. -/
  | tooLongToRead (digits : Nat)
  /-- The number has more digits than the limit. -/
  | tooLongToWrite
  /-- The text holds a character that is no decimal digit. -/
  | notDecimal (text : List Char)
deriving DecidableEq, Repr

/-- The error as it is reported. A text that is no numeral is quoted, and of the
quotation at most 200 characters are shown. -/
def NumeralError.message : NumeralError → String
  | .tooLongToRead digits =>
    "Exceeds the limit (" ++ toString numeralLimit
      ++ " digits) for integer string conversion: value has " ++ toString digits
      ++ " digits; use sys.set_int_max_str_digits() to increase the limit"
  | .tooLongToWrite =>
    "Exceeds the limit (" ++ toString numeralLimit
      ++ " digits) for integer string conversion; use sys.set_int_max_str_digits()"
      ++ " to increase the limit"
  | .notDecimal text =>
    "invalid literal for int() with base 10: "
      ++ String.ofList ((quoteChars text).take 200)

/-- The number that a sequence of decimal digits stands for. -/
def digitsValue (cs : List Char) : Nat :=
  cs.foldl (fun n c => 10 * n + (decimalValue? c).getD 0) 0

/-- Read a numeral. The decimal digits at the start of the text are counted first:
too many of them is the error, even when some other character follows. -/
def readNumeral (cs : List Char) : Except NumeralError Nat :=
  let digits := cs.takeWhile isDecimal
  if numeralLimit < digits.length then .error (.tooLongToRead digits.length)
  else if digits.length < cs.length then .error (.notDecimal cs)
  else .ok (digitsValue cs)

/-- Write a number in decimal digits, with a minus sign when it is negative. -/
def writeNumeral (n : Int) : Except NumeralError String :=
  if numeralLimit < (Nat.toDigits 10 n.natAbs).length then .error .tooLongToWrite
  else .ok (toString n)

end Offside.Text
