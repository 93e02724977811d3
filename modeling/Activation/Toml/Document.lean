import Activation.Toml.Quoted

/-! # TOML documents

Reading a whole document: lines that define keys, headers that open tables and arrays of tables,
comments and blank lines. The reader answers with the entries of the outermost table, or with nothing
when the text is no TOML document.
-/

namespace Activation.Toml
set_option autoImplicit false

/-! ## What stands between values -/

def skipSpaces (cs : List Char) : List Char := cs.dropWhile isSpace

/-- The rest of a line that has nothing more to say, and the lines after it. -/
def finishLine (cs : List Char) : Option (List Char) :=
  let rest :=
    match skipSpaces cs with
    | '#' :: comment => comment.dropWhile isPlain
    | rest => rest
  match rest with
  | [] => some []
  | '\n' :: rest => some rest
  | '\r' :: '\n' :: rest => some rest
  | _ => none

/-- Skips blanks, newlines and comments, as they may stand anywhere between brackets. -/
def skipFiller : Bool → List Char → List Char
  | _, [] => []
  | inComment, c :: cs =>
    if startsLine (c :: cs) then skipFiller (inComment && c = '\r') cs
    else if inComment then (if isPlain c then skipFiller true cs else c :: cs)
    else if c = '#' then skipFiller true cs
    else if isSpace c then skipFiller false cs
    else c :: cs

/-! ## Keys -/

def isBareKeyChar (c : Char) : Bool := c.isAlphanum || c = '_' || c = '-'

/-- One part of a key: a bare word or a quoted string. -/
def readKeyPart (cs : List Char) : Option (String × List Char) :=
  match cs with
  | '"' :: rest => (readBasic rest).map fun r => (String.ofList r.1, r.2)
  | '\'' :: rest => (readLiteral rest).map fun r => (String.ofList r.1, r.2)
  | _ =>
    let word := cs.takeWhile isBareKeyChar
    if word.isEmpty then none else some (String.ofList word, cs.dropWhile isBareKeyChar)

/-- A key of at most `fuel` parts: the parts before the last one, the last one, and what follows. -/
def readKeyParts : Nat → List Char → Option (List String × String × List Char)
  | 0, _ => none
  | fuel + 1, cs => do
    let (part, rest) ← readKeyPart (skipSpaces cs)
    match skipSpaces rest with
    | '.' :: rest => do
      let (path, key, rest) ← readKeyParts fuel rest
      pure (part :: path, key, rest)
    | rest => pure ([], part, rest)

/-- How many parts a key may have, and how deep arrays and inline tables may be nested. -/
def nestingLimit : Nat := 80

def readKey (cs : List Char) : Option (List String × String × List Char) :=
  readKeyParts nestingLimit cs

/-- A key, an equals sign, and the place where the value begins; `skip` passes over what may stand
around the equals sign. -/
def readKeyMark (skip : List Char → List Char) (cs : List Char) :
    Option (List String × String × List Char) := do
  let (path, key, rest) ← readKey cs
  match skip rest with
  | '=' :: rest => pure (path, key, skip rest)
  | _ => none

/-! ## Values -/

mutual

/-- A value with at most `depth` levels of brackets, and what follows it. -/
def readValue : Nat → Nat → List Char → Option (Value × List Char)
  | 0, _, _ => none
  | fuel + 1, depth, cs =>
    match cs with
    | '"' :: _ | '\'' :: _ => (readString cs).map fun r => (.string (String.ofList r.1), r.2)
    | '[' :: rest =>
      if depth = 0 then none
      else (readItems fuel (depth - 1) rest).map fun r => (.array false r.1, r.2)
    | '\x7b' :: rest =>
      if depth = 0 then none
      else (readPairs fuel (depth - 1) [] rest).map fun r => (.table .inline r.1, r.2)
    | _ =>
      let (word, rest) := splitScalar cs
      (readScalar word).map fun v => (v, rest)

/-- The elements of an array up to its closing bracket. -/
def readItems : Nat → Nat → List Char → Option (List Value × List Char)
  | 0, _, _ => none
  | fuel + 1, depth, cs =>
    match skipFiller false cs with
    | ']' :: rest => some ([], rest)
    | cs => do
      let (v, rest) ← readValue fuel depth cs
      match skipFiller false rest with
      | ']' :: rest => pure ([v], rest)
      | ',' :: rest => do
        let (vs, rest) ← readItems fuel depth rest
        pure (v :: vs, rest)
      | _ => none

/-- The pairs of an inline table up to its closing brace, added to those already read. -/
def readPairs : Nat → Nat → Entries → List Char → Option (Entries × List Char)
  | 0, _, _, _ => none
  | fuel + 1, depth, es, cs =>
    match skipFiller false cs with
    | '\x7d' :: rest => some (es, rest)
    | cs => do
      let (path, key, rest) ← readKeyMark (skipFiller false) cs
      let (v, rest) ← readValue fuel depth rest
      let es ← es.defineAt path key v .inline
      match skipFiller false rest with
      | '\x7d' :: rest => pure (es, rest)
      | ',' :: rest => readPairs fuel depth es rest
      | _ => none

end

/-! ## Lines -/

/-- What has been read so far: the outermost table, and the path of the table that is open. -/
structure Draft where
  root : Entries := []
  heading : List String := []

namespace Draft

/-- Opens a table or an element of an array of tables. -/
def openHeading (d : Draft) (change : String → TableForm → Entries → Option Entries)
    (path : List String) (key : String) : Option Draft := do
  let root ← Entries.descend false (change key) path .header d.root
  pure { root, heading := path ++ [key] }

/-- Defines a key in the open table. -/
def define (d : Draft) (path : List String) (key : String) (v : Value) : Option Draft := do
  let root ← Entries.descend false (fun form es => es.defineAt path key v form) d.heading .header
    d.root
  pure { d with root }

/-- Reads one line, or several if a value extends over them. -/
def readLine (d : Draft) (cs : List Char) : Option (Draft × List Char) :=
  match skipSpaces cs with
  | '[' :: '[' :: rest => do
    let (path, key, rest) ← readKey rest
    match rest with
    | ']' :: ']' :: rest => do
      let d ← d.openHeading Entries.openElement path key
      pure (d, ← finishLine rest)
    | _ => none
  | '[' :: rest => do
    let (path, key, rest) ← readKey rest
    match rest with
    | ']' :: rest => do
      let d ← d.openHeading Entries.openTable path key
      pure (d, ← finishLine rest)
    | _ => none
  | cs =>
    match finishLine cs with
    | some rest => some (d, rest)
    | none => do
      let (path, key, rest) ← readKeyMark skipSpaces cs
      let (v, rest) ← readValue (2 * rest.length + 2) nestingLimit rest
      let d ← d.define path key v
      pure (d, ← finishLine rest)

/-- Reads at most `fuel` lines. -/
def readLines : Nat → Draft → List Char → Option Draft
  | _, d, [] => some d
  | 0, _, _ :: _ => none
  | fuel + 1, d, cs => do
    let (d, rest) ← d.readLine cs
    readLines fuel d rest

end Draft

/-- The outermost table of a document. A byte order mark at its front is ignored. -/
def read (text : String) : Option Entries :=
  let cs :=
    match text.toList with
    | '\ufeff' :: cs => cs
    | cs => cs
  (Draft.readLines cs.length {} cs).map Draft.root

end Activation.Toml
