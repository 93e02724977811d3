/-! # Reference counts

A count is a signed 64-bit word. Two encodings hide immortality inside the word.

* `Count`: the words, as integers with their bounds; `Count.word`, `Count.ofWord`: their bits.
* `Count.splice`: the word with another low half; `Count.val_splice`: what that makes of the integer.
* `Encoding.wide`: a count is immortal when the sign bit of its low half is set, and a retain stops
  once the low half is all ones.
* `Encoding.narrow`: one sentinel value is immortal.
* `Encoding.incremented`, `Encoding.decremented`: one retain and one release on a bare count;
  `Encoding.incremented_eq_some_iff`, `Encoding.decremented_eq_stored_iff`: each moves the count by one or not at all.
-/

namespace Activation
set_option autoImplicit false

/-- A signed 64-bit word. -/
structure Count where
  val : Int
  lower : -0x8000000000000000 ≤ val
  upper : val < 0x8000000000000000
deriving DecidableEq

namespace Count

/-- The count of an integer that fits into the word. -/
def ofInt? (n : Int) : Option Count :=
  if inside : -0x8000000000000000 ≤ n ∧ n < 0x8000000000000000 then some ⟨n, inside.1, inside.2⟩ else none

def one : Count := ⟨1, by decide, by decide⟩

/-- The low half of the word, read without a sign. -/
def low (c : Count) : Int := c.val % 0x100000000

/-- The bits of the count, in two's complement. -/
def word (c : Count) : BitVec 64 := BitVec.ofInt 64 c.val

/-- The count with these bits. -/
def ofWord (w : BitVec 64) : Count :=
  ⟨w.toInt, by have := w.le_toInt; omega, by have := w.toInt_lt; omega⟩

/-- The bits of the low half. -/
def lowBits (c : Count) : BitVec 32 := c.word.setWidth 32

/-- The count with another low half. -/
def splice (c : Count) (half : BitVec 32) : Count :=
  ofWord ((c.word &&& ~~~0xffffffff#64) ||| half.setWidth 64)

end Count

/-- How a word tells mortal counts from immortal ones. -/
inductive Encoding where
  | wide
  | narrow
deriving DecidableEq, Repr

/-- What one release makes of a bare count. -/
inductive Decrement where
  /-- The count is immortal and stays. -/
  | skipped
  /-- The word has no smaller value. -/
  | overflow
  | stored (next : Count)
deriving DecidableEq

namespace Encoding

/-- The encoding of 64-bit words. -/
def native : Encoding := .wide

/-- The count that marks an object immortal. -/
def immortal : Encoding → Count
  | .wide => ⟨0xffffffff, by decide, by decide⟩
  | .narrow => ⟨0x3fffffff, by decide, by decide⟩

def isImmortal (e : Encoding) (c : Count) : Bool :=
  match e with
  | .wide => decide (c.lowBits.toInt < 0)
  | .narrow => decide (c = narrow.immortal)

/-- The count after one retain, or `none` when the retain has to be skipped. -/
def incremented (e : Encoding) (c : Count) : Option Count :=
  match e with
  | .wide =>
    if c.lowBits.uaddOverflow 1#32 then none
    else some (c.splice (c.lowBits + 1#32))
  | .narrow =>
    if narrow.isImmortal c then none
    else Count.ofInt? (c.val + 1)

/-- The count after one release. -/
def decremented (e : Encoding) (c : Count) : Decrement :=
  if e.isImmortal c then .skipped
  else if lowest : c.val = -0x8000000000000000 then .overflow
  else .stored ⟨c.val - 1, by have := c.lower; omega, by have := c.upper; omega⟩

end Encoding

/-! ## Bits and integers -/

namespace Count

theorem ext {c d : Count} (val : c.val = d.val) : c = d := by
  cases c
  cases d
  cases val
  rfl

theorem toNat_word (c : Count) : (c.word.toNat : Int) = c.val % 0x10000000000000000 := by
  rw [word, BitVec.toNat_ofInt]
  omega

theorem toNat_lowBits (c : Count) : (c.lowBits.toNat : Int) = c.low := by
  have whole := c.toNat_word
  rw [lowBits, low, BitVec.toNat_setWidth]
  omega

/-- One more than the low half needs a bit more than the half has. -/
theorem carries_iff (c : Count) : c.lowBits.uaddOverflow 1#32 = true ↔ c.low = 0xffffffff := by
  have half := c.toNat_lowBits
  have fits := c.lowBits.isLt
  have one : (1#32).toNat = 1 := rfl
  rw [BitVec.uaddOverflow, decide_eq_true_eq]
  omega

/-- The mask clears the low half and nothing else. -/
theorem and_not_lowMask (w : BitVec 64) : w &&& ~~~0xffffffff#64 = (w >>> 32) <<< 32 := by
  have mask : 0xffffffff#64 = (BitVec.allOnes 32).setWidth 64 := rfl
  rw [mask]
  ext i bound
  simp only [BitVec.getElem_and, BitVec.getElem_not, BitVec.getElem_setWidth, BitVec.getLsbD_allOnes,
    BitVec.getElem_shiftLeft]
  by_cases below : i < 32
  · simp [below]
  · have back : 32 + (i - 32) = i := by omega
    simp [below, back, bound]

/-- What the mask leaves and a half have no bit in common, so the two add up. -/
theorem toNat_masked_or (w : BitVec 64) (half : BitVec 32) :
    ((w &&& ~~~0xffffffff#64) ||| half.setWidth 64).toNat = w.toNat - w.toNat % 0x100000000 + half.toNat := by
  have bound := w.isLt
  have fits := half.isLt
  have above : ((w >>> 32) <<< 32).toNat = w.toNat >>> 32 <<< 32 := by
    rw [BitVec.toNat_shiftLeft, BitVec.toNat_ushiftRight]
    apply Nat.mod_eq_of_lt
    rw [Nat.shiftLeft_eq, Nat.shiftRight_eq_div_pow]
    omega
  have below : (half.setWidth 64).toNat = half.toNat := by
    rw [BitVec.toNat_setWidth]
    omega
  rw [and_not_lowMask, BitVec.toNat_or, above, below, ← Nat.shiftLeft_add_eq_or_of_lt fits, Nat.shiftLeft_eq,
    Nat.shiftRight_eq_div_pow]
  omega

/-- The new half takes the place of the old one; the sign and the upper half stay. -/
theorem val_splice (c : Count) (half : BitVec 32) : (c.splice half).val = c.val - c.low + half.toNat := by
  have whole := c.toNat_word
  have bits := toNat_masked_or c.word half
  have fits := half.isLt
  have lower := c.lower
  have upper := c.upper
  simp only [splice, ofWord, low, BitVec.toInt_eq_toNat_cond, bits]
  split <;> omega

end Count

/-! ## Retains -/

namespace Encoding

theorem isImmortal_wide_iff (c : Count) : wide.isImmortal c = true ↔ 0x80000000 ≤ c.low := by
  have half := c.toNat_lowBits
  have fits := c.lowBits.isLt
  simp only [isImmortal, decide_eq_true_eq, BitVec.toInt_eq_toNat_cond]
  split <;> omega

theorem isImmortal_narrow_iff (c : Count) : narrow.isImmortal c = true ↔ c.val = 0x3fffffff := by
  simp only [isImmortal, decide_eq_true_eq]
  exact ⟨fun same => by rw [same]; rfl, fun val => Count.ext val⟩

/-- The counts that a retain leaves alone. -/
def Full : Encoding → Count → Prop
  | .wide, c => c.low = 0xffffffff
  | .narrow, c => c.val = 0x3fffffff ∨ c.val = 0x7fffffffffffffff

variable {e : Encoding} {c d : Count}

theorem incremented_of_full (full : e.Full c) : e.incremented c = none := by
  cases e with
  | wide => simp [incremented, c.carries_iff.mpr full]
  | narrow =>
    rcases full with sentinel | last
    · simp [incremented, (isImmortal_narrow_iff c).mpr sentinel]
    · simp [incremented, Count.ofInt?, last]

/-- A retain of any other count adds one, in the low half alone as well as in the whole word. -/
theorem incremented_of_room (room : ¬ e.Full c) : ∃ d, e.incremented c = some d ∧ d.val = c.val + 1 := by
  cases e with
  | wide =>
    have half := c.toNat_lowBits
    have still : c.lowBits.uaddOverflow 1#32 = false := by
      rw [← Bool.not_eq_true, Count.carries_iff]
      exact room
    have next : (c.lowBits + 1#32).toNat = c.lowBits.toNat + 1 :=
      BitVec.toNat_add_of_not_uaddOverflow (by simp [still])
    refine ⟨c.splice (c.lowBits + 1#32), by simp [incremented, still], ?_⟩
    rw [Count.val_splice, next]
    omega
  | narrow =>
    simp only [Full, not_or] at room
    have mortal : narrow.isImmortal c = false := by
      rw [← Bool.not_eq_true, isImmortal_narrow_iff]
      exact room.1
    have lower := c.lower
    have upper := c.upper
    refine ⟨⟨c.val + 1, by omega, by omega⟩, ?_, rfl⟩
    rw [incremented, mortal]
    exact dif_pos ⟨by omega, by omega⟩

theorem incremented_eq_some_iff : e.incremented c = some d ↔ ¬ e.Full c ∧ d.val = c.val + 1 := by
  constructor
  · intro retained
    have room : ¬ e.Full c := by
      intro full
      rw [incremented_of_full full] at retained
      cases retained
    obtain ⟨k, again, next⟩ := incremented_of_room room
    rw [retained] at again
    cases again
    exact ⟨room, next⟩
  · rintro ⟨room, next⟩
    obtain ⟨k, retained, same⟩ := incremented_of_room room
    rw [retained, Count.ext (same.trans next.symm)]

/-- Immortality is never lost by a retain: the one step that leads out of it is skipped. -/
theorem isImmortal_of_incremented (immortal : e.isImmortal c = true) (retained : e.incremented c = some d) :
    e.isImmortal d = true := by
  obtain ⟨room, next⟩ := incremented_eq_some_iff.mp retained
  cases e with
  | wide =>
    rw [isImmortal_wide_iff] at *
    simp only [Full, Count.low] at *
    omega
  | narrow => exact absurd (.inl ((isImmortal_narrow_iff c).mp immortal)) room

/-! ## Releases -/

theorem decremented_eq_stored_iff : e.decremented c = .stored d ↔ e.isImmortal c = false ∧ d.val = c.val - 1 := by
  have lower := d.lower
  unfold decremented
  split
  · next immortal => simp [immortal]
  · next mortal =>
    rw [Bool.not_eq_true] at mortal
    split
    · next least => exact iff_of_false (by simp) fun fits => by omega
    · rw [Decrement.stored.injEq]
      exact ⟨fun same => ⟨mortal, by rw [← same]⟩, fun fits => Count.ext fits.2.symm⟩

end Encoding

end Activation
