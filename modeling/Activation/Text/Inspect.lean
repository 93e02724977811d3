import Activation.Text.Hidden

/-! # Inspection text

The form in which values appear in diagnostics: strings in double quotes with escapes, structures as
`Name \x7b field: value, ... \x7d`, optional values as `None` or `Some(value)`.
-/

namespace Activation.Text
set_option autoImplicit false

/-- The digits of a number in base sixteen, in lower case. -/
def hex (n : Nat) : String := String.ofList (Nat.toDigits 16 n)

/-- The characters that stand for `c` between double quotes. -/
def escape (c : Char) : String :=
  if c = '"' then "\\\""
  else if c = '\\' then "\\\\"
  else if c = '\n' then "\\n"
  else if c = '\t' then "\\t"
  else if c = '\r' then "\\r"
  else if c = '\x00' then "\\0"
  else if isHidden c then "\\u\x7b" ++ hex c.toNat ++ "\x7d"
  else c.toString

/-- A string in double quotes. -/
def quoted (s : String) : String :=
  "\"" ++ String.join (s.toList.map escape) ++ "\""

/-- A structure with its named fields. -/
def inspectFields (name : String) (fields : List (String × String)) : String :=
  name ++ " \x7b " ++ ", ".intercalate (fields.map fun f => f.1 ++ ": " ++ f.2) ++ " \x7d"

def inspectOption (x : Option String) : String :=
  match x with
  | none => "None"
  | some text => "Some(" ++ text ++ ")"

def inspectBool (b : Bool) : String := if b then "true" else "false"

end Activation.Text
