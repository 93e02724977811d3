import Activation.Toml.Scalar

/-! # TOML strings

Reading and writing the four forms of strings: between double quotes, where a backslash escapes, or
between single quotes, where it does not; and each of them on one line, or on several lines between
triple quotes. A newline right after opening triple quotes does not count, and up to two quotes may
touch the closing ones.

The writer takes the plainest form that can hold a text.
-/

namespace Activation.Toml
open Text (isDigitOf valueOf)
set_option autoImplicit false

/-- The characters that may stand for themselves in a line: all but the control characters, of which
only the tab is allowed. -/
def isPlain (c : Char) : Bool := c = '\t' || (0x20 ≤ c.toNat && c.toNat ≠ 0x7f)

/-! ## Reading -/

/-- What an escape of one letter stands for. -/
def shortEscape (c : Char) : Option Char :=
  if c = 'b' then some '\x08'
  else if c = 't' then some '\t'
  else if c = 'n' then some '\n'
  else if c = 'f' then some '\x0c'
  else if c = 'r' then some '\r'
  else if c = 'e' then some '\x1b'
  else if c = '"' then some '"'
  else if c = '\\' then some '\\'
  else none

/-- The character whose number is written in base sixteen. -/
def readCodePoint (digits : List Char) : Option Char :=
  let n := valueOf 16 digits
  if digits.all (isDigitOf 16) && decide n.isValidChar then some (Char.ofNat n) else none

/-- The rest of a string between double quotes, and what follows it. -/
def readBasic : List Char → Option (List Char × List Char)
  | [] => none
  | '"' :: rest => some ([], rest)
  | '\\' :: 'x' :: a :: b :: rest => do
    let x ← readCodePoint [a, b]
    let (text, rest) ← readBasic rest
    pure (x :: text, rest)
  | '\\' :: 'u' :: a :: b :: c :: d :: rest => do
    let x ← readCodePoint [a, b, c, d]
    let (text, rest) ← readBasic rest
    pure (x :: text, rest)
  | '\\' :: 'U' :: a :: b :: c :: d :: e :: f :: g :: h :: rest => do
    let x ← readCodePoint [a, b, c, d, e, f, g, h]
    let (text, rest) ← readBasic rest
    pure (x :: text, rest)
  | '\\' :: c :: rest => do
    let x ← shortEscape c
    let (text, rest) ← readBasic rest
    pure (x :: text, rest)
  | c :: rest =>
    if isPlain c && c ≠ '\\' then do
      let (text, rest) ← readBasic rest
      pure (c :: text, rest)
    else none

/-- The rest of a string between single quotes, and what follows it. -/
def readLiteral : List Char → Option (List Char × List Char)
  | [] => none
  | '\'' :: rest => some ([], rest)
  | c :: rest =>
    if isPlain c then do
      let (text, rest) ← readLiteral rest
      pure (c :: text, rest)
    else none

/-- A newline at the front of a list does not count. -/
def dropNewline : List Char → List Char
  | '\n' :: rest => rest
  | '\r' :: '\n' :: rest => rest
  | rest => rest

/-- What follows triple quotes that close a string: up to two quotes still belong to the text. -/
def closeTriple (quote : Char) : List Char → List Char × List Char
  | [] => ([], [])
  | [c] => if c = quote then ([quote], []) else ([], [c])
  | c :: d :: rest =>
    if c = quote then
      if d = quote then ([quote, quote], rest) else ([quote], d :: rest)
    else ([], c :: d :: rest)

def isSpace (c : Char) : Bool := c = ' ' || c = '\t'

def startsLine : List Char → Bool
  | '\n' :: _ => true
  | '\r' :: '\n' :: _ => true
  | _ => false

/-- The rest of a string between triple double quotes, and what follows it. A backslash at the end of
a line swallows all blanks and newlines up to the next character; `skipping` says that this is under
way. -/
def readLongBasic : Bool → List Char → Option (List Char × List Char)
  | _, [] => none
  | _, '"' :: '"' :: '"' :: rest => some (closeTriple '"' rest)
  | _, '\\' :: 'x' :: a :: b :: rest => do
    let x ← readCodePoint [a, b]
    let (text, rest) ← readLongBasic false rest
    pure (x :: text, rest)
  | _, '\\' :: 'u' :: a :: b :: c :: d :: rest => do
    let x ← readCodePoint [a, b, c, d]
    let (text, rest) ← readLongBasic false rest
    pure (x :: text, rest)
  | _, '\\' :: 'U' :: a :: b :: c :: d :: e :: f :: g :: h :: rest => do
    let x ← readCodePoint [a, b, c, d, e, f, g, h]
    let (text, rest) ← readLongBasic false rest
    pure (x :: text, rest)
  | _, '\\' :: c :: rest =>
    if startsLine ((c :: rest).dropWhile isSpace) then readLongBasic true (c :: rest)
    else do
      let x ← shortEscape c
      let (text, rest) ← readLongBasic false rest
      pure (x :: text, rest)
  | skipping, c :: rest =>
    if skipping && (isSpace c || startsLine (c :: rest)) then readLongBasic true rest
    else if (isPlain c && c ≠ '\\') || startsLine (c :: rest) then do
      let (text, rest) ← readLongBasic false rest
      pure (c :: text, rest)
    else none

/-- The rest of a string between triple single quotes, and what follows it. -/
def readLongLiteral : List Char → Option (List Char × List Char)
  | [] => none
  | '\'' :: '\'' :: '\'' :: rest => some (closeTriple '\'' rest)
  | c :: rest =>
    if isPlain c || startsLine (c :: rest) then do
      let (text, rest) ← readLongLiteral rest
      pure (c :: text, rest)
    else none

/-- A string in any form, and what follows it. -/
def readString : List Char → Option (List Char × List Char)
  | '"' :: '"' :: '"' :: rest => readLongBasic false (dropNewline rest)
  | '\'' :: '\'' :: '\'' :: rest => readLongLiteral (dropNewline rest)
  | '"' :: rest => readBasic rest
  | '\'' :: rest => readLiteral rest
  | _ => none

/-! ## Writing -/

/-- A number in base sixteen with at least four digits. -/
def fourDigits (n : Nat) : List Char :=
  let digits := (Nat.toDigits 16 n).map Char.toUpper
  List.replicate (4 - digits.length) '0' ++ digits

/-- How a character is written between double quotes. -/
def escapeChar (c : Char) : List Char :=
  if c = '"' then ['\\', '"']
  else if c = '\\' then ['\\', '\\']
  else if c = '\n' then ['\\', 'n']
  else if c = '\t' then ['\\', 't']
  else if c = '\r' then ['\\', 'r']
  else if c = '\x08' then ['\\', 'b']
  else if c = '\x0c' then ['\\', 'f']
  else if isPlain c then [c]
  else '\\' :: 'u' :: fourDigits c.toNat

/-- A text for between triple double quotes: newlines stand for themselves, and of every three quotes
in a row the third is escaped. `run` counts the quotes just written. -/
def escapeLong : Nat → List Char → List Char
  | _, [] => []
  | run, c :: cs =>
    if c = '"' then
      if run = 2 then '\\' :: '"' :: escapeLong 0 cs else '"' :: escapeLong (run + 1) cs
    else (if c = '\n' then ['\n'] else escapeChar c) ++ escapeLong 0 cs

/-- The length of the longest run of a character; `run` is the length of the run so far. -/
def longestRun (quote : Char) : Nat → List Char → Nat
  | run, [] => run
  | run, c :: cs =>
    if c = quote then longestRun quote (run + 1) cs else max run (longestRun quote 0 cs)

/-- The forms of a string. -/
inductive StringForm where
  | basic
  | literal
  | longBasic
  | longLiteral
deriving DecidableEq, Repr

/-- The first form that can hold a text without escapes, tabs aside; if there is none, double quotes
with escapes, in triple form for a text of several lines. -/
def formOf (cs : List Char) : StringForm :=
  let control := cs.any fun c => !isPlain c && c ≠ '\n'
  let backslash := cs.any fun c => c = '\\'
  let newline := cs.any fun c => c = '\n'
  let single := longestRun '\'' 0 cs
  let double := longestRun '"' 0 cs
  if !control && !backslash && !newline && double = 0 then .basic
  else if !control && !newline && single = 0 then .literal
  else if !control && !backslash && double ≤ 2 then .longBasic
  else if !control && single ≤ 2 then .longLiteral
  else if newline then .longBasic
  else .basic

/-- A text of several lines begins on a line of its own. -/
def leadingNewline (cs : List Char) : List Char :=
  if cs.any fun c => c = '\n' then ['\n'] else []

def triple (quote : Char) : List Char := [quote, quote, quote]

def writeString (cs : List Char) : List Char :=
  match formOf cs with
  | .basic => '"' :: cs.flatMap escapeChar ++ ['"']
  | .literal => '\'' :: cs ++ ['\'']
  | .longBasic => triple '"' ++ leadingNewline cs ++ escapeLong 0 cs ++ triple '"'
  | .longLiteral => triple '\'' ++ leadingNewline cs ++ cs ++ triple '\''

end Activation.Toml
