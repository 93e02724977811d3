import Activation.Text.Ranges

/-! # Blank characters and numbers in settings

Values that come from outside are read without the blanks around them. The blanks are the characters
with the Unicode property `White_Space`.
-/

namespace Activation.Text
set_option autoImplicit false

/-- The ranges of blank characters. -/
def blankRanges : Ranges :=
  [(0x09, 0x0d), (0x20, 0x20), (0x85, 0x85), (0xa0, 0xa0), (0x1680, 0x1680), (0x2000, 0x200a),
   (0x2028, 0x2029), (0x202f, 0x202f), (0x205f, 0x205f), (0x3000, 0x3000)]

def isBlank (c : Char) : Bool := blankRanges.holds c.toNat

/-- A text without the blanks at its two ends. -/
def trimList (cs : List Char) : List Char :=
  ((cs.dropWhile isBlank).reverse.dropWhile isBlank).reverse

def trim (s : String) : String := String.ofList (trimList s.toList)

/-- A text in lower case, as far as its letters are ASCII. -/
def lowerCase (s : String) : String := String.ofList (s.toList.map Char.toLower)

/-- The number that a list of decimal digits denotes. -/
def digitsValue (cs : List Char) : Nat :=
  cs.foldl (fun n c => 10 * n + (c.toNat - '0'.toNat)) 0

/-- One or more decimal digits. -/
def readDigits (cs : List Char) : Option Nat :=
  if cs.isEmpty || !cs.all Char.isDigit then none else some (digitsValue cs)

/-- A number below `bound`: decimal digits, perhaps after a plus sign. -/
def readNumber (bound : Nat) (s : String) : Option Nat :=
  let digits :=
    match s.toList with
    | '+' :: cs => cs
    | cs => cs
  (readDigits digits).filter fun n => n < bound

end Activation.Text
