import Activation.Text.Blank
import Activation.Text.Digits
import Activation.Toml.Value

/-! # TOML numbers, truth values and dates

The values that are written without quotes and brackets. An underscore may part the digits of a
number, and a decimal number has no superfluous leading zero.

The spelling of a number and its value are two things. An integer has a value if it lies between
`-2^127` and `2^128 - 1`, and a number with a fraction or an exponent if it rounds to a finite double.
A number that is spelled as it should be but has no value is kept as `Value.unreadable`; so is a base
without digits after it.
-/

namespace Activation.Toml
open Text (isDigitOf valueOf)
set_option autoImplicit false

/-! ## Digits -/

/-- The characters of a number without the underscores between them. -/
def ungroup (cs : List Char) : List Char := cs.filter fun c => c ≠ '_'

/-- Whether every underscore has a digit on either side. `afterDigit` says that one stands in front of
the whole text. -/
def isGrouped (isDigit : Char → Bool) : Bool → List Char → Bool
  | _, [] => true
  | afterDigit, c :: cs =>
    if c = '_' then afterDigit && cs.head?.any isDigit && isGrouped isDigit false cs
    else isGrouped isDigit (isDigit c) cs

/-- A sign, if there is one, and what follows it. -/
def splitSign : List Char → Option Char × List Char
  | '-' :: cs => (some '-', cs)
  | '+' :: cs => (some '+', cs)
  | cs => (none, cs)

/-! ## Integers -/

/-- An integer if it can be held. -/
def integerValue (n : Int) : Value :=
  if -(Nat.pow 2 127 : Nat) ≤ n && n < (Nat.pow 2 128 : Nat) then .integer n else .unreadable

/-- The value of digits in a base; there may be none. -/
def integerOf (negative : Bool) (base : Nat) (digits : List Char) : Value :=
  if digits.isEmpty || !digits.all (isDigitOf base) then .unreadable
  else integerValue (if negative then -(valueOf base digits : Int) else valueOf base digits)

/-- A number in a base that its first two characters have announced. -/
def readInBase (base : Nat) (cs : List Char) : Option Value :=
  if cs.all (fun c => isDigitOf base c || c = '_') && isGrouped (isDigitOf 16) false cs then
    some (integerOf false base (ungroup cs))
  else none

/-- A decimal integer. What stands after an underscore is looked at only when the number is
evaluated, apart from the underscore's neighbours. -/
def readDecimal (sign : Option Char) (cs : List Char) : Option Value :=
  let zero := cs.head? = some '0' && cs.length ≠ 1
  let digits := cs.dropWhile Char.isDigit
  if zero || cs.isEmpty || (digits.head?.any fun c => c ≠ '_') then none
  else if isGrouped (isDigitOf 16) sign.isSome cs then
    some (integerOf (sign = some '-') 10 (ungroup cs))
  else none

/-! ## Numbers with a fraction or an exponent -/

/-- Whether `mantissa * 10 ^ exponent` rounds to a finite double. -/
def roundsFinite (mantissa : Nat) (exponent : Int) : Bool :=
  let limit := Nat.pow 2 1024 - Nat.pow 2 970
  let places : Int := (toString mantissa).length + exponent
  if mantissa = 0 || places < 300 then true
  else if 400 < places then false
  else if 0 ≤ exponent then mantissa * Nat.pow 10 exponent.toNat < limit
  else mantissa < limit * Nat.pow 10 (-exponent).toNat

/-- Digits with underscores at the front of a text, without the underscores, and what follows them.
There is at least one digit. -/
def splitDigits (cs : List Char) : Option (List Char × List Char) :=
  let isPart (c : Char) := c.isDigit || c = '_'
  let digits := ungroup (cs.takeWhile isPart)
  if digits.isEmpty then none else some (digits, cs.dropWhile isPart)

/-- The digits before the point, without a superfluous zero in front. -/
def splitWhole (cs : List Char) : Option (List Char × List Char) := do
  let (digits, rest) ← splitDigits cs
  if cs.head? = some '0' && digits.length ≠ 1 then none else pure (digits, rest)

/-- The digits after the point, if there is one. -/
def splitFraction : List Char → Option (List Char × List Char)
  | '.' :: cs => splitDigits cs
  | cs => some ([], cs)

/-- The exponent, if there is one. -/
def readExponent : List Char → Option Int
  | [] => some 0
  | c :: cs =>
    if c = 'e' || c = 'E' then do
      let (sign, cs) := splitSign cs
      let (digits, rest) ← splitDigits cs
      if rest.isEmpty then
        pure (if sign = some '-' then -(valueOf 10 digits : Int) else valueOf 10 digits)
      else none
    else none

/-- A number with a fraction, an exponent or both. -/
def readFloat (sign : Option Char) (cs : List Char) : Option Value := do
  let (whole, rest) ← splitWhole cs
  let (fraction, rest) ← splitFraction rest
  let exponent ← readExponent rest
  if !isGrouped Char.isDigit sign.isSome cs then none
  else if roundsFinite (valueOf 10 (whole ++ fraction)) (exponent - fraction.length) then
    pure .float
  else pure .unreadable

/-- A number in any form. -/
def readNumber (cs : List Char) : Option Value :=
  match cs with
  | '0' :: 'x' :: digits => readInBase 16 digits
  | '0' :: 'o' :: digits => readInBase 8 digits
  | '0' :: 'b' :: digits => readInBase 2 digits
  | _ =>
    let (sign, body) := splitSign cs
    if body = "inf".toList || body = "nan".toList then some .float
    else if body.any fun c => c = '.' || c = 'e' || c = 'E' then readFloat sign body
    else readDecimal sign body

/-! ## Dates and times -/

def isLeapYear (year : Nat) : Bool := year % 4 = 0 && (year % 100 ≠ 0 || year % 400 = 0)

def daysIn (year month : Nat) : Nat :=
  if month = 2 then (if isLeapYear year then 29 else 28)
  else if month ∈ [4, 6, 9, 11] then 30
  else 31

/-- A number of exactly `width` digits. -/
def readFixed (width : Nat) (cs : List Char) : Option (Nat × List Char) :=
  let digits := cs.take width
  if digits.length = width && digits.all Char.isDigit then
    some (Text.digitsValue digits, cs.drop width)
  else none

def readMark (mark : Char) : List Char → Option (List Char)
  | c :: cs => if c = mark then some cs else none
  | [] => none

/-- A date, and what follows it. -/
def readDate (cs : List Char) : Option (List Char) := do
  let (year, cs) ← readFixed 4 cs
  let cs ← readMark '-' cs
  let (month, cs) ← readFixed 2 cs
  let cs ← readMark '-' cs
  let (day, cs) ← readFixed 2 cs
  if 1 ≤ month && month ≤ 12 && 1 ≤ day && day ≤ daysIn year month then pure cs else none

/-- The seconds of a time with their fraction, either of which may be missing, and what follows
them. -/
def readSeconds : List Char → Option (List Char)
  | ':' :: cs => do
    let (second, cs) ← readFixed 2 cs
    if 60 < second then none
    else
      match cs with
      | '.' :: digits =>
        let rest := digits.dropWhile Char.isDigit
        if rest.length < digits.length then pure rest else none
      | cs => pure cs
  | cs => some cs

/-- A time of day, and what follows it. -/
def readTime (cs : List Char) : Option (List Char) := do
  let (hour, cs) ← readFixed 2 cs
  let cs ← readMark ':' cs
  let (minute, cs) ← readFixed 2 cs
  if hour ≤ 23 && minute ≤ 59 then readSeconds cs else none

/-- Whether a text is the distance of a local time from universal time. -/
def isOffset (cs : List Char) : Bool :=
  match cs with
  | ['Z'] | ['z'] => true
  | c :: cs =>
    if c = '+' || c = '-' then
      let rest := do
        let (hour, cs) ← readFixed 2 cs
        let cs ← readMark ':' cs
        let (minute, cs) ← readFixed 2 cs
        if hour ≤ 23 && minute ≤ 59 then some cs else none
      rest = some []
    else false
  | [] => false

/-- Whether a text is a date, a time, or a date with a time. -/
def isDatetime (cs : List Char) : Bool :=
  match readDate cs with
  | some [] => true
  | some (mark :: cs) =>
    if mark = 'T' || mark = 't' || mark = ' ' then
      match readTime cs with
      | some [] => true
      | some offset => isOffset offset
      | none => false
    else false
  | none => readTime cs = some []

/-! ## All together -/

/-- The value that an unquoted text denotes. -/
def readScalar (cs : List Char) : Option Value :=
  if cs = "true".toList then some (.boolean true)
  else if cs = "false".toList then some (.boolean false)
  else if isDatetime cs then some .datetime
  else readNumber cs

/-- The characters of unquoted values: all but blanks and those with a meaning of their own. -/
def isScalarChar (c : Char) : Bool := !",=[]\x7b\x7d#\x20\t\r\n".toList.contains c

/-- The unquoted text at the front, and what follows it. A date may be parted from its time by one
blank. -/
def splitScalar (cs : List Char) : List Char × List Char :=
  let word := cs.takeWhile isScalarChar
  let rest := cs.dropWhile isScalarChar
  match rest with
  | ' ' :: after =>
    if readDate word = some [] && (after.head?.any Char.isDigit) then
      (word ++ ' ' :: after.takeWhile isScalarChar, after.dropWhile isScalarChar)
    else (word, rest)
  | _ => (word, rest)

end Activation.Toml
