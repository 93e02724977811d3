/-! # The block of a compiled context

Compiled code reads and writes the state of its context in a block beside its frame. The block begins
with three words, for the link, the return address and the frame pointer; then come the yield point and
the state, at offsets that compiled code relies on.
-/

namespace Activation.Layout
set_option autoImplicit false

/-- Bytes in a word. -/
def wordSize : Nat := 8

def yieldPointOffset : Nat := 3 * wordSize

def stateOffset : Nat := yieldPointOffset + wordSize

end Activation.Layout
