import Activation.Text.Alphanumeric
import Activation.Text.Blank
import Activation.Text.Digits

/-! # Patterns

Which texts are patterns for the values of fields. A pattern is a regular expression: alternatives
parted by bars, groups with names and modes, classes of characters in brackets, repetitions and
escapes. Only the spelling matters here, as no event is ever compared with a pattern.

A pattern stands between braces, so it has no closing brace of its own, and what would need one is an
error. So is what cannot be decided character by character without tables: classes by property, letters
regardless of their case, and the edges of words, unless the pattern speaks of bytes.
-/

namespace Activation.Log
set_option autoImplicit false

namespace Pattern

/-! ## Modes -/

/-- How a part of a pattern is to be understood. -/
structure Modes where
  ignoresCase : Bool := false
  /-- The pattern speaks of characters; otherwise of bytes. -/
  ofCharacters : Bool := true
  /-- Blanks, and comments up to the end of the line, do not count. -/
  spaced : Bool := false

/-- Passes over what does not count. -/
def skipComment : Bool → List Char → List Char
  | _, [] => []
  | inComment, c :: cs =>
    if inComment then skipComment (c ≠ '\n') cs
    else if c = '#' then skipComment true cs
    else if Text.isBlank c then skipComment false cs
    else c :: cs

def Modes.skip (m : Modes) (cs : List Char) : List Char :=
  if m.spaced then skipComment false cs else cs

/-- Switches the mode of that letter on or off. Modes that change no spelling are known as well. -/
def Modes.set (m : Modes) (on : Bool) (letter : Char) : Option Modes :=
  if letter = 'i' then some { m with ignoresCase := on }
  else if letter = 'u' then some { m with ofCharacters := on }
  else if letter = 'x' then some { m with spaced := on }
  else if letter ∈ ['m', 's', 'U', 'R'] then some m
  else none

/-- The letters of modes up to a colon or a closing parenthesis: those after a minus sign are switched
off, no letter comes twice, and a minus sign comes at most once and not last. -/
def readModes : Modes → Bool → List Char → List Char → Option (Modes × Char × List Char)
  | _, _, _, [] => none
  | m, on, seen, c :: cs =>
    if c = ':' || c = ')' then
      if seen.head? = some '-' then none else some (m, c, cs)
    else if seen.contains c then none
    else if c = '-' then readModes m false (c :: seen) cs
    else
      match m.set on c with
      | none => none
      | some m => readModes m on (c :: seen) cs

/-! ## Escapes -/

/-- What a backslash and the characters after it stand for. -/
inductive Escaped where
  | letter (code : Nat)
  /-- One of the classes of digits, blanks and words, or what is outside of it. -/
  | kind (negated : Bool)
  /-- The start or the end of the text. -/
  | edge
  | wordEdge

/-- A character by its number, written with exactly `width` digits. -/
def readCode (width : Nat) (cs : List Char) : Option (Escaped × List Char) :=
  let digits := cs.take width
  let code := Text.valueOf 16 digits
  if digits.length = width && digits.all (Text.isDigitOf 16) && decide code.isValidChar then
    some (.letter code, cs.drop width)
  else none

/-- Reads what follows a backslash. A mark stands for itself; of the letters only some have a
meaning. A number of two digits is a byte where the pattern speaks of bytes, and then it is an ASCII
character. -/
def readEscape (m : Modes) : List Char → Option (Escaped × List Char)
  | [] => none
  | c :: cs =>
    if c = 'x' then
      match readCode 2 cs with
      | some (.letter code, rest) =>
        if m.ofCharacters || code < 0x80 then some (.letter code, rest) else none
      | _ => none
    else if c = 'u' then readCode 4 cs
    else if c = 'U' then readCode 8 cs
    else if c ∈ ['d', 's', 'w'] then some (.kind false, cs)
    else if c ∈ ['D', 'S', 'W'] then some (.kind true, cs)
    else if c ∈ ['A', 'z'] then some (.edge, cs)
    else if c ∈ ['b', 'B', '<', '>'] then some (.wordEdge, cs)
    else if c ∈ ['a', 'f', 't', 'n', 'r', 'v'] || (c.toNat < 0x80 && !c.isAlphanum) then
      some (.letter c.toNat, cs)
    else none

/-- Classes by property need tables; of bytes, what is outside of a class is no text. -/
def allowsKind (m : Modes) (negated : Bool) : Bool := !m.ofCharacters && !negated

/-- Letters regardless of their case need tables. -/
def allowsLetter (m : Modes) : Bool := !(m.ignoresCase && m.ofCharacters)

/-! ## Classes of characters -/

/-- One character of a class, or an escape. Of bytes, only ASCII characters are allowed. -/
def readItem (m : Modes) : List Char → Option (Escaped × List Char)
  | [] => none
  | '\\' :: cs => readEscape m cs
  | c :: cs => if m.ofCharacters || c.toNat < 0x80 then some (.letter c.toNat, cs) else none

/-- An item of a class, or a range between two characters in ascending order. A minus sign in front of
the closing bracket or of another one makes no range. -/
def readRange (m : Modes) (cs : List Char) : Option (List Char) := do
  let (first, rest) ← readItem m cs
  let single : Option (List Char) :=
    match first with
    | .letter _ => some rest
    | .kind negated => if allowsKind m negated then some rest else none
    | _ => none
  match m.skip rest with
  | [] => none
  | '-' :: after =>
    match m.skip after with
    | [] => none
    | c :: after =>
      if c = ']' || c = '-' then single
      else do
        let (last, rest) ← readItem m (c :: after)
        match first, last with
        | .letter a, .letter b => if a ≤ b then some rest else none
        | _, _ => none
  | _ => single

/-- The names of the classes that are written between colons. -/
def classNames : List String :=
  ["alnum", "alpha", "ascii", "blank", "cntrl", "digit", "graph", "lower", "print", "punct", "space",
   "upper", "word", "xdigit"]

/-- A named class after its opening bracket. -/
def readNamedClass : List Char → Option (List Char)
  | ':' :: cs =>
    let body :=
      match cs with
      | '^' :: cs => cs
      | cs => cs
    let name := body.takeWhile fun c => c ≠ ':'
    match body.drop name.length with
    | ':' :: ']' :: rest => if classNames.contains (String.ofList name) then some rest else none
    | _ => none
  | _ => none

/-- The beginning of a class after its opening bracket: it may be negated, and minus signs or else a
closing bracket in front are plain characters. -/
def openClass (m : Modes) (cs : List Char) : Option (List Char) :=
  let body :=
    match m.skip cs with
    | '^' :: cs => if m.ofCharacters then some (m.skip cs) else none
    | cs => some cs
  match body with
  | none => none
  | some ('-' :: cs) => some (m.skip (cs.dropWhile fun c => c = '-'))
  | some (']' :: cs) => some cs
  | some cs => some cs

/-- The rest of a class with `depth` brackets open, in at most `fuel` items. -/
def readClass (m : Modes) : Nat → Nat → List Char → Option (List Char)
  | 0, _, _ => none
  | fuel + 1, depth, cs =>
    match m.skip cs with
    | [] => none
    | '[' :: rest =>
      match readNamedClass rest with
      | some rest => readClass m fuel depth rest
      | none => do
        let rest ← openClass m rest
        readClass m fuel (depth + 1) rest
    | ']' :: rest => if depth ≤ 1 then some rest else readClass m fuel (depth - 1) rest
    | '&' :: '&' :: rest => readClass m fuel depth rest
    | '-' :: '-' :: rest => readClass m fuel depth rest
    | '~' :: '~' :: rest => readClass m fuel depth rest
    | cs => do
      let rest ← readRange m cs
      readClass m fuel depth rest

/-! ## Groups -/

/-- What is known in the middle of a pattern. -/
structure Progress where
  modes : Modes := {}
  /-- The modes that the open groups return to, the innermost first. -/
  outer : List Modes := []
  /-- Whether there is something that a repetition can refer to. -/
  repeatable : Bool := false
  /-- The names of the groups so far. -/
  names : List (List Char) := []

/-- Something that can be repeated has been read. -/
def Progress.complete (p : Progress) : Progress := { p with repeatable := true }

/-- Opens a group whose inside has the given modes. -/
def Progress.openGroup (p : Progress) (inside : Modes) : Progress :=
  { p with modes := inside, outer := p.modes :: p.outer, repeatable := false }

/-- A name begins with a letter or an underscore; digits, points and brackets may follow. -/
def isGroupName : List Char → Bool
  | [] => false
  | c :: cs =>
    (c = '_' || (Text.isAlphanumeric c && !c.isDigit))
      && cs.all fun c => c = '_' || c = '.' || c = '[' || c = ']' || Text.isAlphanumeric c

/-- A group with a name, after the opening angle. -/
def readNamedGroup (p : Progress) (cs : List Char) : Option (Progress × List Char) :=
  let name := cs.takeWhile fun c => c ≠ '>'
  match cs.drop name.length with
  | '>' :: rest =>
    if isGroupName name && !p.names.contains name then
      some ({ p.openGroup p.modes with names := name :: p.names }, rest)
    else none
  | _ => none

/-- What follows an opening parenthesis. A look ahead or behind is not allowed. Modes may be set for
the group alone, or without a group for what follows. -/
def readGroup (p : Progress) (cs : List Char) : Option (Progress × List Char) :=
  match cs with
  | '?' :: 'P' :: '<' :: rest => readNamedGroup p rest
  | '?' :: '<' :: rest => readNamedGroup p rest
  | '?' :: rest =>
    match readModes p.modes true [] rest with
    | some (modes, ':', after) => some (p.openGroup modes, after)
    | some (modes, _, after) =>
      if rest.head? = some ')' then none
      else some ({ p with modes, repeatable := false }, after)
    | none => none
  | _ => some (p.openGroup p.modes, cs)

/-! ## All together -/

/-- A question mark after a repetition makes it prefer few copies. -/
def dropLazy : List Char → List Char
  | '?' :: cs => cs
  | cs => cs

/-- Reads the next element of a pattern. -/
def readElement (p : Progress) : List Char → Option (Progress × List Char)
  | [] => none
  | '(' :: cs => readGroup p (p.modes.skip cs)
  | ')' :: cs =>
    match p.outer with
    | [] => none
    | modes :: outer => some ({ p with modes, outer, repeatable := true }, cs)
  | '|' :: cs => some ({ p with repeatable := false }, cs)
  | '[' :: cs =>
    if allowsLetter p.modes then do
      let rest ← openClass p.modes cs
      let rest ← readClass p.modes (rest.length + 1) 1 rest
      pure (p.complete, rest)
    else none
  | '\x7b' :: _ => none
  | '\\' :: cs =>
    match readEscape p.modes cs with
    | some (.letter _, rest) => if allowsLetter p.modes then some (p.complete, rest) else none
    | some (.kind negated, rest) =>
      if allowsKind p.modes negated then some (p.complete, rest) else none
    | some (.edge, rest) => some (p.complete, rest)
    | some (.wordEdge, rest) => if p.modes.ofCharacters then none else some (p.complete, rest)
    | none => none
  | c :: cs =>
    if c = '*' || c = '+' || c = '?' then
      if p.repeatable then some (p, dropLazy cs) else none
    else if c = '.' then (if p.modes.ofCharacters then some (p.complete, cs) else none)
    else if c = '^' || c = '$' || allowsLetter p.modes then some (p.complete, cs)
    else none

/-- Whether a text of at most `fuel` elements completes a pattern. -/
def completes : Nat → Progress → List Char → Bool
  | 0, _, _ => false
  | fuel + 1, p, cs =>
    match p.modes.skip cs with
    | [] => p.outer.isEmpty
    | cs =>
      match readElement p cs with
      | none => false
      | some (p, rest) => completes fuel p rest

end Pattern

/-- Whether a text is a pattern. -/
def isPattern (cs : List Char) : Bool := Pattern.completes (cs.length + 1) {} cs

end Activation.Log
