import Activation.Toml.Library

/-! # The grammar of plain documents

What plain documents mean, as far as TOML 1.0 is concerned. Nothing here refers to a reader.

* `Spelled cs text`: the characters `cs` are a string in one of the four forms, and `text` is what it means.
* `Denotes cs v`: the characters `cs` are a value.
* `Tells text d`: the lines of a text make up the document `d`.
* `Library.Follows`: the library reads plain documents for what they tell, and writes them with a line for each header
  and key and each string in the form that `writeString` picks.

In a string of several lines no more than two quotes follow each other, so `Long` counts those that stand in front. A
newline right after the opening quotes does not belong to the text.
-/

namespace Activation.Toml
open Text (isDigitOf valueOf)
set_option autoImplicit false

/-! ## Strings -/

/-- The letters that stand for a character after a backslash. -/
def escapes : List (Char × Char) :=
  [('b', '\x08'), ('t', '\t'), ('n', '\n'), ('f', '\x0c'), ('r', '\r'), ('"', '"'), ('\\', '\\')]

/-- The ways to spell a character between double quotes. -/
inductive Spelling (c : Char) : List Char → Prop
  | plain (plain : isPlain c = true) (quote : c ≠ '"') (backslash : c ≠ '\\') : Spelling c [c]
  | short {d : Char} (short : (d, c) ∈ escapes) : Spelling c ['\\', d]
  | point {i j k l : Char} (digits : ∀ d ∈ [i, j, k, l], isDigitOf 16 d = true)
      (point : valueOf 16 [i, j, k, l] = c.toNat) : Spelling c ['\\', 'u', i, j, k, l]

inductive Chars : List Char → List Char → Prop
  | nil : Chars [] []
  | cons {c : Char} {spelled cs text : List Char} (spelling : Spelling c spelled) (more : Chars cs text) :
      Chars (spelled ++ cs) (c :: text)

/-- The rest of a text between triple quotes, after `run` quotes in a row; `content` is how all else is spelled. -/
inductive Long (quote : Char) (content : Char → List Char → Prop) : Nat → List Char → List Char → Prop
  | nil {run : Nat} : Long quote content run [] []
  | quote {run : Nat} {cs text : List Char} (few : run < 2) (more : Long quote content (run + 1) cs text) :
      Long quote content run (quote :: cs) (quote :: text)
  | other {run : Nat} {c : Char} {spelled cs text : List Char} (spelling : content c spelled)
      (more : Long quote content 0 cs text) : Long quote content run (spelled ++ cs) (c :: text)

def LongSpelling (c : Char) (spelled : List Char) : Prop := Spelling c spelled ∨ c = '\n' ∧ spelled = ['\n']

def LiteralSpelling (c : Char) (spelled : List Char) : Prop :=
  (isPlain c = true ∧ c ≠ '\'' ∨ c = '\n') ∧ spelled = [c]

/-- What may stand between opening triple quotes and the text. -/
def Lead (lead cs : List Char) : Prop := lead = ['\n'] ∨ lead = [] ∧ cs.head? ≠ some '\n'

inductive Spelled : List Char → List Char → Prop
  | basic {cs text : List Char} (body : Chars cs text) : Spelled ('"' :: cs ++ ['"']) text
  | literal {text : List Char} (plain : ∀ c ∈ text, isPlain c = true ∧ c ≠ '\'') : Spelled ('\'' :: text ++ ['\'']) text
  | longBasic {lead cs text : List Char} (start : Lead lead cs) (body : Long '"' LongSpelling 0 cs text) :
      Spelled (triple '"' ++ lead ++ cs ++ triple '"') text
  | longLiteral {lead cs text : List Char} (start : Lead lead cs) (body : Long '\'' LiteralSpelling 0 cs text) :
      Spelled (triple '\'' ++ lead ++ cs ++ triple '\'') text

/-! ## Documents -/

/-- The largest number is `2^64 - 1`. -/
def Scalar.Small : Scalar → Prop
  | .integer n => n < 0x10000000000000000
  | _ => True

inductive Denotes : List Char → Scalar → Prop
  | boolean (b : Bool) : Denotes (if b then "true".toList else "false".toList) (.boolean b)
  | integer {n : Nat} (small : (Scalar.integer n).Small) : Denotes (Nat.toDigits 10 n) (.integer n)
  | string {cs : List Char} {text : String} (spelled : Spelled cs text.toList) : Denotes cs (.string text)

def isBareKey (key : String) : Bool := !key.toList.isEmpty && key.toList.all isBareKeyChar

/-- The lines of a text lead from one document to another. -/
inductive Lines : Document → List Char → Document → Prop
  | nil (d : Document) : Lines d [] d
  | blank {d e : Document} {rest : List Char} (more : Lines d rest e) : Lines d ('\n' :: rest) e
  | heading {d e : Document} {name : String} {rest : List Char} (bare : isBareKey name = true)
      (fresh : name ∉ d.map Prod.fst) (more : Lines (d ++ [(name, [])]) rest e) : Lines d (headingText name rest) e
  | entry {d e : Document} {name key : String} {es : List (String × Scalar)} {v : Scalar} {cs rest : List Char}
      (bare : isBareKey key = true) (fresh : key ∉ es.map Prod.fst) (value : Denotes cs v)
      (more : Lines (d ++ [(name, es ++ [(key, v)])]) rest e) : Lines (d ++ [(name, es)]) (entryText key cs rest) e

def Tells (text : String) (d : Document) : Prop := Lines [] text.toList d

/-- Keys are bare, no two in one place are the same, and numbers can be written. -/
structure Document.Plain (d : Document) : Prop where
  names : (d.map Prod.fst).Nodup
  bare : ∀ t ∈ d, isBareKey t.1 = true
  keys : ∀ t ∈ d, (t.2.map Prod.fst).Nodup
  entries : ∀ t ∈ d, ∀ e ∈ t.2, isBareKey e.1 = true ∧ e.2.Small

structure Library.Follows (toml : Library) : Prop where
  reads : ∀ {text : String} {d : Document}, Tells text d → toml.read text = some d.entries
  writes : ∀ {d : Document}, d.Plain → toml.write d = some d.text

end Activation.Toml
