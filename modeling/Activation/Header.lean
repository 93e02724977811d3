import Activation.Count

/-! # Object headers

The counter that every object carries. Retains and releases go through the native encoding; an
immortal header is changed by neither a release nor an overwrite.
-/

namespace Activation
set_option autoImplicit false

/-- The lifetime counter of one object. -/
structure Header where
  count : Count
deriving DecidableEq

/-- What a release tells its caller. -/
inductive Released where
  | alive
  | dead
deriving DecidableEq, Repr

/-- What one release does to a header. -/
inductive Release where
  /-- An immortal header is left alone. -/
  | skipped
  /-- The new header, and whether the last reference was given back. -/
  | stored (next : Header) (released : Released)
  /-- A mortal count went below zero, which ends the program. -/
  | negative (next : Header)
  /-- The count has no smaller value. -/
  | overflow
deriving DecidableEq

namespace Header

/-- A header owned by exactly one reference. -/
def fresh : Header := ⟨.one⟩

def immortal : Header := ⟨Encoding.native.immortal⟩

def isImmortal (h : Header) : Bool := Encoding.native.isImmortal h.count

/-- The header after one retain, or `none` when the retain is skipped. -/
def retain (h : Header) : Option Header := (Encoding.native.incremented h.count).map Header.mk

def release (h : Header) : Release :=
  match Encoding.native.decremented h.count with
  | .skipped => .skipped
  | .overflow => .overflow
  | .stored next =>
    if next.val = 0 then .stored ⟨next⟩ .dead
    else if next.val < 0 then .negative ⟨next⟩
    else .stored ⟨next⟩ .alive

/-- Overwrites the count, unless the header is immortal. -/
def setCount (h : Header) (c : Count) : Header := if h.isImmortal then h else ⟨c⟩

/-! ## Retains and releases -/

theorem isImmortal_iff (h : Header) : h.isImmortal = true ↔ 0x80000000 ≤ h.count.low :=
  Encoding.isImmortal_wide_iff h.count

@[simp] theorem isImmortal_fresh : fresh.isImmortal = false := by decide

@[simp] theorem isImmortal_immortal : immortal.isImmortal = true := by decide

theorem low_lt_of_mortal {h : Header} (mortal : h.isImmortal = false) :
    h.count.low < 0x80000000 := by
  have low : ¬ 0x80000000 ≤ h.count.low := by rw [← isImmortal_iff]; simp [mortal]
  omega

/-- A count of `2^31` is immortal, so a mortal one has to be less, or more than `2^32`. -/
theorem val_lt_of_mortal {h : Header} (mortal : h.isImmortal = false) :
    h.count.val ≤ 0x80000000 → h.count.val < 0x80000000 := by
  have low := low_lt_of_mortal mortal
  simp only [Count.low] at low
  omega

theorem mortal_of_lt {h : Header} (lower : 0 ≤ h.count.val) (upper : h.count.val < 0x80000000) :
    h.isImmortal = false := by
  rw [← Bool.not_eq_true, isImmortal_iff]
  simp only [Count.low]
  omega

/-- A retain counts as long as there is room in the low half. -/
theorem retain_of_room {h : Header} (room : h.count.low ≠ 0xffffffff) :
    ∃ k, h.retain = some k ∧ k.count.val = h.count.val + 1 := by
  obtain ⟨next, incremented, val⟩ := Encoding.incremented_of_room (e := .wide) room
  exact ⟨⟨next⟩, by simp [retain, Encoding.native, incremented], val⟩

theorem retain_of_full {h : Header} (full : h.count.low = 0xffffffff) : h.retain = none := by
  simp [retain, Encoding.native, Encoding.incremented_of_full (e := .wide) full]

theorem incremented_of_retain {h k : Header} (retained : h.retain = some k) :
    Encoding.native.incremented h.count = some k.count := by
  obtain ⟨next, incremented, rfl⟩ := Option.map_eq_some_iff.mp retained
  exact incremented

theorem room_of_retain {h k : Header} (retained : h.retain = some k) : h.count.low ≠ 0xffffffff :=
  (Encoding.incremented_eq_some_iff.mp (incremented_of_retain retained)).1

theorem val_of_retain {h k : Header} (retained : h.retain = some k) : k.count.val = h.count.val + 1 :=
  (Encoding.incremented_eq_some_iff.mp (incremented_of_retain retained)).2

theorem isImmortal_of_retain {h k : Header} (immortal : h.isImmortal = true)
    (retained : h.retain = some k) : k.isImmortal = true :=
  Encoding.isImmortal_of_incremented immortal (incremented_of_retain retained)

theorem retain_of_mortal {h : Header} (mortal : h.isImmortal = false) :
    ∃ k, h.retain = some k ∧ k.count.val = h.count.val + 1 := by
  have low := low_lt_of_mortal mortal
  exact retain_of_room (by omega)

theorem release_of_immortal {h : Header} (immortal : h.isImmortal = true) : h.release = .skipped := by
  simp only [isImmortal] at immortal
  simp [release, Encoding.decremented, immortal]

/-- Only a mortal header dies, and its count is zero by then. -/
theorem of_release_dead {h k : Header} (dead : h.release = .stored k .dead) :
    h.isImmortal = false ∧ k.count.val = 0 := by
  unfold release at dead
  split at dead
  · cases dead
  · cases dead
  · next stored =>
    have mortal := (Encoding.decremented_eq_stored_iff.mp stored).1
    split at dead
    · next zero =>
      cases dead
      exact ⟨mortal, zero⟩
    · split at dead <;> cases dead

/-- A release too many. -/
theorem release_of_zero {h : Header} (zero : h.count.val = 0) :
    ∃ k, h.release = .negative k ∧ k.count.val = -1 := by
  have mortal := mortal_of_lt (h := h) (by omega) (by omega)
  simp only [isImmortal] at mortal
  simp [release, Encoding.decremented, mortal, zero]

/-- The last release of a mortal header. -/
theorem release_of_one {h : Header} (mortal : h.isImmortal = false) (one : h.count.val = 1) :
    ∃ k, h.release = .stored k .dead ∧ k.count.val = 0 := by
  simp only [isImmortal] at mortal
  simp [release, Encoding.decremented, mortal, one]

/-- Any other release of a mortal header. -/
theorem release_of_one_lt {h : Header} (mortal : h.isImmortal = false) (more : 1 < h.count.val) :
    ∃ k, h.release = .stored k .alive ∧ k.count.val = h.count.val - 1 := by
  simp only [isImmortal] at mortal
  have bounded : h.count.val ≠ -0x8000000000000000 := by omega
  have positive : ¬ h.count.val - 1 = 0 := by omega
  have above : ¬ h.count.val - 1 < 0 := by omega
  simp [release, Encoding.decremented, mortal, bounded, positive, above]

end Header

end Activation
