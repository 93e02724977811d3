import Activation.Count
import Mathlib.Data.BitVec

/-! # One interface, two encodings

Retains and releases of bare counts, over all words of 64 bits and for both encodings.

* `Encoding.BelowImmortal`, `Encoding.AboveImmortal`: the mortal counts next to the immortal ones.
* `Encoding.enters_iff`, `Encoding.leaves_iff`: of two neighbours, when is one of them immortal and the other not?
* `encoding_arithmetic`: the laws.
-/

namespace Activation
set_option autoImplicit false

namespace Count

theorem toInt_word (c : Count) : c.word.toInt = c.val := by
  have whole := c.toNat_word
  have lower := c.lower
  have upper := c.upper
  rw [BitVec.toInt_eq_toNat_cond]
  split <;> omega

end Count

namespace Encoding

/-- The mortal counts with an immortal one above them. -/
def BelowImmortal : Encoding → Count → Prop
  | .wide, c => c.low = 2 ^ 31 - 1
  | .narrow, c => c.val = 2 ^ 30 - 2

/-- The mortal counts with an immortal one below them. In the wide encoding that is where the low half starts over. -/
def AboveImmortal : Encoding → Count → Prop
  | .wide, c => c.low = 0
  | .narrow, c => c.val = 2 ^ 30

variable {e : Encoding} {c d : Count}

theorem mortal_wide_iff : wide.isImmortal c = false ↔ c.low < 2 ^ 31 := by
  rw [← Bool.not_eq_true, isImmortal_wide_iff]
  omega

theorem mortal_narrow_iff : narrow.isImmortal c = false ↔ c.val ≠ 2 ^ 30 - 1 := by
  rw [← Bool.not_eq_true, isImmortal_narrow_iff]
  omega

/-! ## One call -/

theorem incremented_eq_none_iff : e.incremented c = none ↔ e.Full c := by
  refine ⟨fun skipped => ?_, incremented_of_full⟩
  by_contra room
  obtain ⟨d, retained, -⟩ := incremented_of_room room
  rw [skipped] at retained
  cases retained

theorem decremented_eq_skipped_iff : e.decremented c = .skipped ↔ e.isImmortal c = true := by
  unfold decremented
  split
  · next immortal => exact iff_of_true rfl immortal
  · next mortal => exact iff_of_false (by split <;> simp) mortal

/-- The least word is mortal in both encodings, so its release is tried. -/
theorem decremented_eq_overflow_iff : e.decremented c = .overflow ↔ c.val = -2 ^ 63 := by
  have mortal (least : c.val = -2 ^ 63) : e.isImmortal c = false := by
    cases e with
    | wide => rw [mortal_wide_iff, Count.low]; omega
    | narrow => rw [mortal_narrow_iff]; omega
  unfold decremented
  split
  · next immortal =>
    refine iff_of_false (by simp) fun least => ?_
    rw [mortal least] at immortal
    cases immortal
  · split
    · next least => exact iff_of_true rfl least
    · next more => exact iff_of_false (by simp) more

/-! ## Neighbours -/

section Neighbours

variable (next : d.val = c.val + 1)

include next

theorem enters_iff : e.isImmortal c = false ∧ e.isImmortal d = true ↔ e.BelowImmortal c := by
  cases e with
  | wide =>
    simp only [mortal_wide_iff, isImmortal_wide_iff, BelowImmortal, Count.low]
    omega
  | narrow =>
    simp only [mortal_narrow_iff, isImmortal_narrow_iff, BelowImmortal]
    omega

theorem leaves_iff : e.isImmortal c = true ∧ e.isImmortal d = false ↔ e.AboveImmortal d := by
  cases e with
  | wide =>
    simp only [mortal_wide_iff, isImmortal_wide_iff, AboveImmortal, Count.low]
    omega
  | narrow =>
    simp only [mortal_narrow_iff, isImmortal_narrow_iff, AboveImmortal]
    omega

end Neighbours

theorem not_full_of_belowImmortal (below : e.BelowImmortal c) : ¬ e.Full c := by
  cases e with
  | wide =>
    simp only [BelowImmortal, Full] at *
    omega
  | narrow =>
    simp only [BelowImmortal, Full] at *
    omega

/-! ## Laws -/

theorem not_saddOverflow_of_incremented (retained : e.incremented c = some d) : c.word.saddOverflow 1#64 = false := by
  have next := (incremented_eq_some_iff.mp retained).2
  have lower := d.lower
  have upper := d.upper
  have one : (1#64).toInt = 1 := rfl
  simp only [BitVec.saddOverflow, Count.toInt_word, one, Bool.or_eq_false_iff, decide_eq_false_iff_not]
  omega

theorem decremented_of_incremented (retained : e.incremented c = some d) (mortal : e.isImmortal d = false) :
    e.decremented d = .stored c := by
  have next := (incremented_eq_some_iff.mp retained).2
  exact decremented_eq_stored_iff.mpr ⟨mortal, by omega⟩

theorem retain_enters_iff :
    (e.isImmortal c = false ∧ ∃ d, e.incremented c = some d ∧ e.isImmortal d = true) ↔ e.BelowImmortal c := by
  constructor
  · rintro ⟨mortal, d, retained, immortal⟩
    exact (enters_iff (incremented_eq_some_iff.mp retained).2).mp ⟨mortal, immortal⟩
  · intro below
    obtain ⟨d, retained, next⟩ := incremented_of_room (not_full_of_belowImmortal below)
    obtain ⟨mortal, immortal⟩ := (enters_iff next).mpr below
    exact ⟨mortal, d, retained, immortal⟩

theorem release_enters_iff :
    (e.isImmortal c = false ∧ ∃ d, e.decremented c = .stored d ∧ e.isImmortal d = true) ↔
      e.AboveImmortal c ∧ c.val ≠ -2 ^ 63 := by
  constructor
  · rintro ⟨mortal, d, released, immortal⟩
    have before := (decremented_eq_stored_iff.mp released).2
    refine ⟨(leaves_iff (by omega)).mp ⟨immortal, mortal⟩, fun least => ?_⟩
    rw [decremented_eq_overflow_iff.mpr least] at released
    cases released
  · rintro ⟨above, more⟩
    have lower := c.lower
    have upper := c.upper
    obtain ⟨d, next⟩ : ∃ d : Count, c.val = d.val + 1 := ⟨⟨c.val - 1, by omega, by omega⟩, by simp⟩
    obtain ⟨immortal, mortal⟩ := (leaves_iff next).mpr above
    exact ⟨mortal, d, decremented_eq_stored_iff.mpr ⟨mortal, by omega⟩, immortal⟩

end Encoding

/-- The laws of both encodings, at every count. A retain is skipped if the count is full; else it adds one, and the sum
fits into the word. A release is skipped if the count is immortal; else it takes one away, which overflows at the
least word and nowhere else. A retain does not end immortality, and it is undone by a release of what it leads to, if
that is mortal. A mortal count becomes immortal by a retain right below the immortal counts, and by a release right
above them, unless that overflows. -/
theorem encoding_arithmetic (e : Encoding) (c : Count) :
    (e.incremented c = none ↔ e.Full c) ∧
    (∀ d, e.incremented c = some d → d.val = c.val + 1 ∧ c.word.saddOverflow 1#64 = false) ∧
    (e.decremented c = .skipped ↔ e.isImmortal c = true) ∧
    (∀ d, e.decremented c = .stored d ↔ e.isImmortal c = false ∧ d.val = c.val - 1) ∧
    (e.decremented c = .overflow ↔ c.val = -2 ^ 63) ∧
    (∀ d, e.incremented c = some d → e.isImmortal c = true → e.isImmortal d = true) ∧
    (∀ d, e.incremented c = some d → e.isImmortal d = false → e.decremented d = .stored c) ∧
    ((e.isImmortal c = false ∧ ∃ d, e.incremented c = some d ∧ e.isImmortal d = true) ↔ e.BelowImmortal c) ∧
    ((e.isImmortal c = false ∧ ∃ d, e.decremented c = .stored d ∧ e.isImmortal d = true) ↔
      e.AboveImmortal c ∧ c.val ≠ -2 ^ 63) := by
  refine ⟨Encoding.incremented_eq_none_iff, fun d retained => ?_, Encoding.decremented_eq_skipped_iff,
    fun d => Encoding.decremented_eq_stored_iff, Encoding.decremented_eq_overflow_iff, fun d retained immortal => ?_,
    fun d => Encoding.decremented_of_incremented, Encoding.retain_enters_iff, Encoding.release_enters_iff⟩
  · exact ⟨(Encoding.incremented_eq_some_iff.mp retained).2, Encoding.not_saddOverflow_of_incremented retained⟩
  · exact Encoding.isImmortal_of_incremented immortal retained

/-- At negative counts of the wide encoding: a retain of `-2^32` is undone by a release, while a release of `-2^32`
itself makes it immortal, and the immortal `-2^31` stays so by a retain. At `2^30` a release meets the sentinel of the
narrow encoding. -/
theorem encoding_arithmetic_negative :
    let c : Count := ⟨-0x100000000, by decide, by decide⟩
    let d : Count := ⟨-0xffffffff, by decide, by decide⟩
    let m : Count := ⟨-0x80000000, by decide, by decide⟩
    let n : Count := ⟨-0x7fffffff, by decide, by decide⟩
    let p : Count := ⟨0x40000000, by decide, by decide⟩
    (Encoding.wide.incremented c = some d ∧ c.word.saddOverflow 1#64 = false ∧
      Encoding.wide.isImmortal d = false ∧ Encoding.wide.decremented d = .stored c) ∧
    (Encoding.wide.isImmortal c = false ∧
      ∃ k, Encoding.wide.decremented c = .stored k ∧ Encoding.wide.isImmortal k = true) ∧
    (Encoding.wide.isImmortal m = true ∧ Encoding.wide.incremented m = some n ∧
      Encoding.wide.isImmortal n = true) ∧
    Encoding.narrow.isImmortal p = false ∧
      ∃ k, Encoding.narrow.decremented p = .stored k ∧ Encoding.narrow.isImmortal k = true := by
  intro c d m n p
  have retained : Encoding.wide.incremented c = some d := by decide +kernel
  have mortal : Encoding.wide.isImmortal d = false := by decide +kernel
  have more : Encoding.wide.incremented m = some n := by decide +kernel
  have immortal : Encoding.wide.isImmortal m = true := by decide +kernel
  obtain ⟨-, adds, -, -, -, -, undone, -, enters⟩ := encoding_arithmetic .wide c
  obtain ⟨-, -, -, -, -, keeps, -⟩ := encoding_arithmetic .wide m
  obtain ⟨-, -, -, -, -, -, -, -, meets⟩ := encoding_arithmetic .narrow p
  exact ⟨⟨retained, (adds d retained).2, mortal, undone d retained mortal⟩, enters.mpr ⟨rfl, by decide⟩,
    ⟨immortal, more, keeps n more immortal⟩, meets.mpr ⟨rfl, by decide⟩⟩

end Activation
