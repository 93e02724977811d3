/-! # Code

The static description of a function: its names, where it is defined, and which source line each
instruction came from.
-/

namespace Activation
set_option autoImplicit false

/-- Instructions from offset `start` on came from `line`. -/
structure LineEntry where
  start : Nat
  line : Nat
deriving DecidableEq, Repr

structure Code where
  module : String
  name : String
  qualname? : Option String := none
  args : Nat := 0
  /-- The line of the definition; zero when it is not known. -/
  firstLine : Nat := 0
  /-- Line entries in the order of their offsets. -/
  lines : List LineEntry := []
deriving DecidableEq, Repr

namespace Code

/-- Line entries in any order; entries with equal offsets keep their order. -/
def withLines (c : Code) (entries : List LineEntry) : Code :=
  { c with lines := entries.mergeSort fun a b => a.start ≤ b.start }

/-- The qualified name, or the bare name where none was recorded. -/
def qualname (c : Code) : String := c.qualname?.getD c.name

/-- `module:qualname`, or `module:!name` when no qualified name was recorded. -/
def qualifiedName (c : Code) : String :=
  match c.qualname? with
  | some q => c.module ++ ":" ++ q
  | none => c.module ++ ":!" ++ c.name

def inspect (c : Code) : String :=
  "<code " ++ c.name ++ " at " ++ c.module ++ ":" ++ toString c.firstLine ++ ">"

/-- The line of the definition, if it is known. -/
def definitionLine (c : Code) : Option Nat := if 0 < c.firstLine then some c.firstLine else none

/-- The source line of the last executed instruction: that of the last entry at or before it, and
the line of the definition while no instruction has run or no entry applies. -/
def lineFor (c : Code) (lastInstr : Int) : Option Nat :=
  if lastInstr < 0 then c.definitionLine
  else
    let offset := min lastInstr.toNat 0xffffffff
    match (c.lines.takeWhile fun e => e.start ≤ offset).getLast? with
    | some e => some e.line
    | none => c.definitionLine

end Code

end Activation
