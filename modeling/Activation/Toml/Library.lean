import Activation.Toml.Document

/-! # Plain documents

A plain document is made of tables that each have a header, and of values that are truth values, natural
numbers and strings. It is written table by table with a blank line in between, and each key on a line of
its own.

* `Library`: what reads and writes documents.
* `library`: `Toml.read`, and a writer that writes every plain document.
-/

namespace Activation.Toml
set_option autoImplicit false

inductive Scalar where
  | boolean (b : Bool)
  | integer (n : Nat)
  | string (text : String)
deriving DecidableEq, Repr

/-- The tables with their keys, in the order in which they are written. -/
abbrev Document := List (String × List (String × Scalar))

namespace Scalar

def value : Scalar → Value
  | .boolean b => .boolean b
  | .integer n => .integer n
  | .string text => .string text

def written : Scalar → List Char
  | .boolean b => if b then "true".toList else "false".toList
  | .integer n => Nat.toDigits 10 n
  | .string text => writeString text.toList

end Scalar

/-- A line that opens a table, and the lines after it. -/
def headingText (name : String) (rest : List Char) : List Char :=
  '[' :: (name.toList ++ ']' :: '\n' :: rest)

/-- A line that defines a key, and the lines after it. -/
def entryText (key : String) (value rest : List Char) : List Char :=
  key.toList ++ ' ' :: '=' :: ' ' :: (value ++ '\n' :: rest)

/-- The lines of a table below its header. -/
def tableText (es : List (String × Scalar)) (rest : List Char) : List Char :=
  es.foldr (fun e rest => entryText e.1 e.2.written rest) rest

namespace Document

def written : Document → List Char
  | [] => []
  | [(name, es)] => headingText name (tableText es [])
  | (name, es) :: d => headingText name (tableText es ('\n' :: written d))

def text (d : Document) : String := String.ofList d.written

/-- What a reader finds in the document. -/
def entries (d : Document) : Entries :=
  d.map fun t => (t.1, .table .header (t.2.map fun e => (e.1, e.2.value)))

end Document

structure Library where
  /-- The outermost table of a text, if the text is a document. -/
  read : String → Option Entries
  /-- The text of a plain document, if the writer can write it. -/
  write : Document → Option String

def library : Library where
  read := Toml.read
  write d := some d.text

end Activation.Toml
