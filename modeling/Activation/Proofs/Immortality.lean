import Activation.Header
import Mathlib.Data.BitVec

/-! # Immortality is for good

Calls on one bare header, in any order and from any count of 64 bits, negative ones and ones that reach into the
upper half of the word included.

* `HeaderCall`, `Header.call`: one call, how it ends and the header after it.
* `Header.after`: the header after a list of calls, unless one of them has ended the program.
* `Count.high`: the upper half of the count; `Header.isImmortal_eq_bit`: a header is immortal if bit 31 is set.
* `immortality_irreversible`: no call takes that bit away.
-/

namespace Activation
set_option autoImplicit false

/-! ## Calls -/

inductive HeaderCall where
  | retain
  | release
  | setCount (c : Count)
  | markImmortal

/-- How a call ends. -/
inductive HeaderAnswer where
  | done
  | released (r : Released)
  /-- The count has gone below zero, which ends the program. -/
  | aborted
  /-- The count has no smaller value, and the call panics. -/
  | overflowed
deriving DecidableEq

namespace Header

def call (h : Header) : HeaderCall → HeaderAnswer × Header
  | .retain => (.done, h.retain.getD h)
  | .release =>
    match h.release with
    | .skipped => (.released .alive, h)
    | .stored next r => (.released r, next)
    | .negative next => (.aborted, next)
    | .overflow => (.overflowed, h)
  | .setCount c => (.done, h.setCount c)
  | .markImmortal => (.done, .immortal)

/-- The header after the calls. A panic is caught and the calls go on; after an abort there is no header. -/
def after (h : Header) : List HeaderCall → Option Header
  | [] => some h
  | c :: calls => if (h.call c).1 = .aborted then none else (h.call c).2.after calls

theorem after_append (h : Header) (before later : List HeaderCall) :
    h.after (before ++ later) = (h.after before).bind fun k => k.after later := by
  induction before generalizing h with
  | nil => rfl
  | cons c calls ih =>
    simp only [List.cons_append, after]
    split
    · rfl
    · exact ih _

end Header

/-! ## Bits -/

namespace Count

/-- The upper 32 bits. -/
def high (c : Count) : BitVec 32 := c.word.extractLsb' 32 32

/-- Adding one to a low half that is not all ones does not carry into the upper half. -/
theorem high_eq_of_succ {c d : Count} (next : d.val = c.val + 1) (room : c.low ≠ 0xffffffff) :
    d.high = c.high := by
  have before := c.toNat_word
  have after := d.toNat_word
  rw [next] at after
  simp only [low] at room
  apply BitVec.eq_of_toNat_eq
  simp only [high, BitVec.extractLsb'_toNat, Nat.shiftRight_eq_div_pow]
  omega

end Count

namespace Header

theorem isImmortal_eq_bit (h : Header) : h.isImmortal = h.count.word.getLsbD 31 := by
  have word := h.count.toNat_word
  have low : h.count.low = h.count.val % 0x100000000 := rfl
  rw [Bool.eq_iff_iff, isImmortal_iff, BitVec.getLsbD, Nat.testBit_eq_decide_div_mod_eq, decide_eq_true_eq]
  omega

/-! ## Calls on an immortal header -/

section Immortal

variable {h : Header} (immortal : h.isImmortal = true)

include immortal

theorem call_release_of_immortal : h.call .release = (.released .alive, h) := by
  simp only [call, release_of_immortal immortal]

theorem call_setCount_of_immortal (c : Count) : h.call (.setCount c) = (.done, h) := by
  simp only [call, setCount, immortal, if_true]

/-- A retain adds one, or leaves a low half that is all ones alone. -/
theorem call_retain_of_immortal :
    (h.call .retain).2.isImmortal = true ∧ h.count.val ≤ (h.call .retain).2.count.val ∧
      (h.call .retain).2.count.high = h.count.high := by
  by_cases full : h.count.low = 0xffffffff
  · have same : (h.call .retain).2 = h := by simp [call, retain_of_full full]
    rw [same]
    exact ⟨immortal, le_refl _, rfl⟩
  · obtain ⟨k, retained, next⟩ := retain_of_room full
    have more : (h.call .retain).2 = k := by simp [call, retained]
    rw [more]
    exact ⟨isImmortal_of_retain immortal retained, by omega, Count.high_eq_of_succ next full⟩

/-- What one call preserves. -/
theorem call_of_immortal (c : HeaderCall) : (h.call c).1 ≠ .aborted ∧ (h.call c).2.isImmortal = true := by
  cases c with
  | retain => exact ⟨by simp [call], (call_retain_of_immortal immortal).1⟩
  | release =>
    rw [call_release_of_immortal immortal]
    exact ⟨by simp, immortal⟩
  | setCount c =>
    rw [call_setCount_of_immortal immortal]
    exact ⟨by simp, immortal⟩
  | markImmortal => exact ⟨by simp [call], isImmortal_immortal⟩

theorem after_of_immortal (calls : List HeaderCall) : ∃ m, h.after calls = some m ∧ m.isImmortal = true := by
  induction calls generalizing h with
  | nil => exact ⟨h, rfl, immortal⟩
  | cons c calls ih =>
    obtain ⟨goes, still⟩ := call_of_immortal immortal c
    rw [after, if_neg goes]
    exact ih still

end Immortal

/-- The count of a marked header is stuck: there is no room for a retain, and nothing else changes it. -/
theorem call_immortal (c : HeaderCall) : (immortal.call c).2 = immortal := by
  cases c with
  | retain => rfl
  | release => rw [call_release_of_immortal isImmortal_immortal]
  | setCount c => rw [call_setCount_of_immortal isImmortal_immortal]
  | markImmortal => rfl

theorem after_immortal (calls : List HeaderCall) : immortal.after calls = some immortal := by
  induction calls with
  | nil => rfl
  | cons c calls ih =>
    rw [after, if_neg (call_of_immortal isImmortal_immortal c).1, call_immortal c]
    exact ih

end Header

/-- Immortality is for good. If a header is immortal after some calls, no further calls end the program, and the
header is immortal after each of them. Then a release answers that the object is alive and changes nothing, an
overwrite changes nothing, and a retain does not make the count smaller or touch its upper half. The count of a
header that is marked is `2^32 - 1` from then on. -/
theorem immortality_irreversible (h : Header) (before later : List HeaderCall) :
    (∀ k, h.after before = some k → k.isImmortal = true →
      ∃ m, h.after (before ++ later) = some m ∧ m.isImmortal = true ∧ m.count.word.getLsbD 31 = true ∧
        m.call .release = (.released .alive, m) ∧ (∀ c, m.call (.setCount c) = (.done, m)) ∧
        m.count.val ≤ (m.call .retain).2.count.val ∧ (m.call .retain).2.count.high = m.count.high) ∧
    (∀ k, h.after before = some k →
      ∃ m, h.after (before ++ .markImmortal :: later) = some m ∧ m.count.val = 2 ^ 32 - 1) := by
  refine ⟨fun k reached immortal => ?_, fun k reached => ?_⟩
  · obtain ⟨m, onward, still⟩ := Header.after_of_immortal immortal later
    obtain ⟨-, grows, same⟩ := Header.call_retain_of_immortal still
    refine ⟨m, ?_, still, ?_, Header.call_release_of_immortal still, Header.call_setCount_of_immortal still,
      grows, same⟩
    · rw [Header.after_append, reached]
      exact onward
    · rw [← Header.isImmortal_eq_bit]
      exact still
  · refine ⟨.immortal, ?_, rfl⟩
    rw [Header.after_append, reached]
    exact Header.after_immortal later

/-- A header with a negative count becomes immortal by a retain and is then released, overwritten and retained. Its
count stays negative; marking it gives it the count of all marked headers. -/
theorem immortality_irreversible_negative :
    let h : Header := ⟨⟨-0x7fffffff00000000 + 0x7fffffff, by decide, by decide⟩⟩
    let later : List HeaderCall := [.release, .setCount ⟨0, by decide, by decide⟩, .retain]
    (∃ k, h.after [.retain] = some k ∧ k.isImmortal = true) ∧
    (∃ m, h.after ([.retain] ++ later) = some m ∧ m.isImmortal = true ∧
      m.count.val = -0x7fffffff00000000 + 0x80000001 ∧ m.call .release = (.released .alive, m)) ∧
    ∃ m, h.after ([.retain] ++ .markImmortal :: later) = some m ∧ m.count.val = 2 ^ 32 - 1 := by
  intro h later
  obtain ⟨keeps, marks⟩ := immortality_irreversible h [.retain] later
  have reached : h.after [.retain] = some ⟨⟨-0x7fffffff00000000 + 0x80000000, by decide, by decide⟩⟩ := by
    decide +kernel
  have immortal : Header.isImmortal ⟨⟨-0x7fffffff00000000 + 0x80000000, by decide, by decide⟩⟩ = true := by
    decide +kernel
  obtain ⟨m, onward, still, -, released, -⟩ := keeps _ reached immortal
  have count : (h.after ([.retain] ++ later)).map (fun m => m.count.val) =
      some (-0x7fffffff00000000 + 0x80000001) := by decide +kernel
  rw [onward] at count
  exact ⟨⟨_, reached, immortal⟩, ⟨m, onward, still, Option.some.inj count, released⟩, marks _ reached⟩

end Activation
