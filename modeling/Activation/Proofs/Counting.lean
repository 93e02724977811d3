import Activation.Panic
import Activation.Proofs.Immortality

/-! # Counting up and down

Retains and releases of one bare header, in any order, that starts with a count below `2^31`.

* `CountCall`: a retain or a release; `Header.run`: the header after a list of them.
* `level n calls`: the start, one more for every retain and one less for every release.
* `Header.run_of_below`: as long as the level does not come to `2^31`, the count is the level.
* `Header.Saturated.run`: from `2^31` on only retains count, and no further than the low half of the word goes.
-/

namespace Activation
set_option autoImplicit false

inductive CountCall where
  | retain
  | release
deriving DecidableEq

def CountCall.call : CountCall → HeaderCall
  | .retain => .retain
  | .release => .release

def level (start : Int) (calls : List CountCall) : Int := start + calls.count .retain - calls.count .release

namespace Header

def run (h : Header) (calls : List CountCall) : Option Header := h.after (calls.map CountCall.call)

/-- The last words of the program, if one more release ends it. -/
def lastWords (h : Header) : Option String :=
  match h.release with
  | .negative next => (Fault.negative next.count.val).farewell
  | _ => none

end Header

/-! ## Levels -/

section Level

variable (start : Int) (calls : List CountCall)

@[simp] theorem level_nil : level start [] = start := by simp [level]

theorem level_append (later : List CountCall) :
    level start (calls ++ later) = level (level start calls) later := by
  simp only [level, List.count_append]
  omega

@[simp] theorem level_concat_retain : level start (calls ++ [.retain]) = level start calls + 1 := by
  rw [level_append]
  exact Int.sub_zero _

@[simp] theorem level_concat_release : level start (calls ++ [.release]) = level start calls - 1 := by
  rw [level_append]
  exact congrArg (· - 1) (Int.add_zero _)

theorem level_up_and_down (m n : Nat) :
    level start (List.replicate m .retain ++ List.replicate n .release) = start + m - n := by
  simp [level, List.count_replicate]

/-- On the way up, and down again by the same number of calls. -/
theorem level_of_prefix {n : Nat} {p : List CountCall}
    (part : p <+: List.replicate n CountCall.retain ++ List.replicate n CountCall.release) :
    start ≤ level start p ∧ level start p ≤ start + n := by
  rw [List.prefix_iff_eq_take, List.take_append, List.take_replicate, List.take_replicate,
    List.length_replicate] at part
  rw [part, level_up_and_down]
  omega

end Level

/-! ## One call -/

namespace Header

variable {h k : Header}

theorem run_concat (calls : List CountCall) (c : CountCall) :
    h.run (calls ++ [c]) =
      (h.run calls).bind fun k => if (k.call c.call).1 = .aborted then none else some (k.call c.call).2 := by
  rw [run, List.map_append, after_append]
  rfl

theorem call_retain_val (mortal : h.isImmortal = false) : (h.call .retain).2.count.val = h.count.val + 1 := by
  obtain ⟨k, retained, next⟩ := retain_of_mortal mortal
  simp [call, retained, next]

/-- A release of a mortal header by the count it finds. -/
theorem call_release_cases (mortal : h.isImmortal = false) (lower : 0 ≤ h.count.val) :
    (h.call .release).1 =
        (if h.count.val = 0 then .aborted else .released (if h.count.val = 1 then .dead else .alive)) ∧
      (h.call .release).2.count.val = h.count.val - 1 ∧
      h.lastWords = if h.count.val = 0 then some "negative reference count -1" else none := by
  rcases Int.lt_trichotomy h.count.val 1 with less | one | more
  · have zero : h.count.val = 0 := by omega
    obtain ⟨k, released, next⟩ := release_of_zero zero
    have words : (Fault.negative (-1)).farewell = some "negative reference count -1" := rfl
    simp [call, lastWords, released, zero, next, words]
  · obtain ⟨k, released, next⟩ := release_of_one mortal one
    simp [call, lastWords, released, one, next]
  · obtain ⟨k, released, next⟩ := release_of_one_lt mortal more
    have not_zero : h.count.val ≠ 0 := by omega
    have not_one : h.count.val ≠ 1 := by omega
    simp [call, lastWords, released, next, not_zero, not_one]

/-! ## Below `2^31` -/

/-- What one call makes of a header whose count is the level. -/
theorem call_of_level {start : Int} {calls : List CountCall} (counts : k.count.val = level start calls)
    (lower : 0 ≤ k.count.val) (upper : k.count.val < 2 ^ 31) (c : CountCall) :
    ((k.call c.call).1 = .aborted ↔ level start (calls ++ [c]) = -1) ∧
      (k.call c.call).2.count.val = level start (calls ++ [c]) := by
  have mortal : k.isImmortal = false := mortal_of_lt lower upper
  cases c with
  | retain =>
    have next := call_retain_val mortal
    rw [level_concat_retain, ← counts]
    refine ⟨⟨fun aborted => ?_, fun gone => ?_⟩, next⟩
    · cases aborted
    · omega
  | release =>
    obtain ⟨answer, next, -⟩ := call_release_cases mortal lower
    rw [level_concat_release, ← counts]
    refine ⟨?_, next⟩
    show (k.call .release).1 = .aborted ↔ _
    rw [answer]
    split
    · exact iff_of_true rfl (by omega)
    · exact iff_of_false (by simp) (by omega)

/-- As long as the level does not come to `2^31`, either it has been below zero and the program has ended, or the count
is the level. -/
theorem run_of_below {start : Int} (begins : h.count.val = start) (lower : 0 ≤ start) (upper : start < 2 ^ 31)
    {calls : List CountCall} (below : ∀ p, p <+: calls → level start p ≠ 2 ^ 31) :
    (h.run calls = none ∧ ∃ p, p <+: calls ∧ level start p = -1) ∨
    (∀ p, p <+: calls → level start p ≠ -1) ∧
      ∃ k, h.run calls = some k ∧ k.count.val = level start calls ∧ 0 ≤ k.count.val ∧ k.count.val < 2 ^ 31 := by
  induction calls using List.reverseRecOn with
  | nil =>
    refine .inr ⟨fun p part => ?_, h, rfl, by simpa using begins, by omega, by omega⟩
    rw [List.prefix_nil.mp part, level_nil]
    omega
  | append_singleton calls c ih =>
    have whole := below _ (List.prefix_refl _)
    rcases ih fun p part => below p (part.trans (List.prefix_append calls [c])) with
      ⟨ended, p, part, gone⟩ | ⟨never, k, reached, counts, above, under⟩
    · refine .inl ⟨?_, p, part.trans (List.prefix_append calls [c]), gone⟩
      rw [run_concat, ended]
      rfl
    · obtain ⟨aborts, next⟩ := call_of_level counts above under c
      by_cases gone : level start (calls ++ [c]) = -1
      · refine .inl ⟨?_, _, List.prefix_refl _, gone⟩
        rw [run_concat, reached, Option.bind_some, if_pos (aborts.mpr gone)]
      · refine .inr ⟨fun p part => ?_, (k.call c.call).2, ?_, next, ?_⟩
        · rcases List.prefix_concat_iff.mp part with rfl | earlier
          · exact gone
          · exact never p earlier
        · rw [run_concat, reached, Option.bind_some, if_neg (fun aborted => gone (aborts.mp aborted))]
        · -- one call moves the level by one, and it has not come to either end
          have near : level start (calls ++ [c]) = level start calls + 1 ∨
              level start (calls ++ [c]) = level start calls - 1 := by
            cases c <;> simp
          omega

/-! ## From `2^31` on -/

/-- The count of a header that has come to `2^31` by a retain, after `n` further ones. -/
def Saturated (h : Header) (n : Nat) : Prop := h.count.val = min (2 ^ 31 + (n : Int)) (2 ^ 32 - 1)

theorem Saturated.isImmortal {n : Nat} (saturated : h.Saturated n) : h.isImmortal = true := by
  unfold Saturated at saturated
  rw [isImmortal_iff, Count.low]
  omega

theorem Saturated.retain {n : Nat} (saturated : h.Saturated n) : (h.call .retain).2.Saturated (n + 1) := by
  unfold Saturated at saturated ⊢
  by_cases full : h.count.low = 0xffffffff
  · have same : (h.call .retain).2 = h := by simp [call, retain_of_full full]
    simp only [Count.low] at full
    rw [same]
    omega
  · obtain ⟨k, retained, next⟩ := retain_of_room full
    have more : (h.call .retain).2 = k := by simp [call, retained]
    simp only [Count.low] at full
    rw [more]
    omega

theorem Saturated.run {n : Nat} (saturated : h.Saturated n) (calls : List CountCall) :
    ∃ k, h.run calls = some k ∧ k.Saturated (n + calls.count .retain) := by
  induction calls using List.reverseRecOn with
  | nil => exact ⟨h, rfl, saturated⟩
  | append_singleton calls c ih =>
    obtain ⟨k, reached, still⟩ := ih
    obtain ⟨goes, -⟩ := call_of_immortal still.isImmortal c.call
    refine ⟨(k.call c.call).2, ?_, ?_⟩
    · rw [run_concat, reached, Option.bind_some, if_neg goes]
    · cases c with
      | retain =>
        show (k.call .retain).2.Saturated _
        simpa [List.count_append, ← Nat.add_assoc] using still.retain
      | release =>
        show (k.call .release).2.Saturated _
        rw [call_release_of_immortal still.isImmortal]
        simpa [List.count_append] using still

/-- The retain by which the level comes to `2^31`. -/
theorem run_of_reaching {start : Int} (begins : h.count.val = start) (lower : 0 ≤ start) (upper : start < 2 ^ 31)
    {before : List CountCall} (inside : ∀ p, p <+: before → level start p ≠ -1 ∧ level start p ≠ 2 ^ 31)
    (reaches : level start (before ++ [CountCall.retain]) = 2 ^ 31) (later : List CountCall) :
    ∃ k, h.run (before ++ CountCall.retain :: later) = some k ∧ k.Saturated (later.count .retain) := by
  obtain ⟨-, p, part, gone⟩ | ⟨-, k, reached, counts, above, under⟩ :=
    run_of_below begins lower upper fun p part => (inside p part).2
  · exact absurd gone (inside p part).1
  · have mortal : k.isImmortal = false := mortal_of_lt above under
    have full : (k.call .retain).2.Saturated 0 := by
      rw [level_concat_retain] at reaches
      unfold Saturated
      rw [call_retain_val mortal]
      omega
    obtain ⟨m, onward, saturated⟩ := full.run later
    refine ⟨m, ?_, by simpa using saturated⟩
    rw [Header.run, List.map_append, after_append, ← Header.run, reached]
    exact onward

theorem eq_of_val (same : k.count.val = h.count.val) : k = h := by
  obtain ⟨⟨n, _, _⟩⟩ := k
  obtain ⟨⟨m, _, _⟩⟩ := h
  obtain rfl : n = m := same
  rfl

theorem run_up_and_down {start : Int} (begins : h.count.val = start) (lower : 0 ≤ start) (upper : start < 2 ^ 31)
    (n : Nat) :
    h.run (List.replicate n CountCall.retain ++ List.replicate n CountCall.release) = some h ↔ start + n < 2 ^ 31 := by
  constructor
  · intro restored
    by_contra high
    -- of the retains, the one after the first `m` comes to `2^31`
    obtain ⟨m, top⟩ : ∃ m : Nat, start + m + 1 = 2 ^ 31 := ⟨(2 ^ 31 - 1 - start).toNat, by omega⟩
    obtain ⟨rest, rfl⟩ : ∃ rest, n = m + (rest + 1) := ⟨n - m - 1, by omega⟩
    have inside : ∀ p, p <+: List.replicate m CountCall.retain → level start p ≠ -1 ∧ level start p ≠ 2 ^ 31 := by
      intro p part
      have := level_of_prefix start (part.trans (List.prefix_append _ (List.replicate m CountCall.release)))
      omega
    have reaches : level start (List.replicate m CountCall.retain ++ [.retain]) = 2 ^ 31 := by
      have up := level_up_and_down start m 0
      rw [List.replicate_zero, List.append_nil] at up
      rw [level_concat_retain, up]
      omega
    obtain ⟨k, reached, saturated⟩ := run_of_reaching begins lower upper inside reaches
      (List.replicate rest CountCall.retain ++ List.replicate (m + (rest + 1)) CountCall.release)
    rw [List.replicate_add, List.replicate_succ, List.append_assoc, List.cons_append, reached] at restored
    cases restored
    unfold Saturated at saturated
    omega
  · intro low
    have bounds : ∀ p, p <+: List.replicate n CountCall.retain ++ List.replicate n CountCall.release →
        level start p ≠ -1 ∧ level start p ≠ 2 ^ 31 := by
      intro p part
      have := level_of_prefix start part
      omega
    obtain ⟨-, p, part, gone⟩ | ⟨-, k, reached, counts, -⟩ :=
      run_of_below begins lower upper fun p part => (bounds p part).2
    · exact absurd gone (bounds p part).1
    · have back := level_up_and_down start n n
      have same : k.count.val = h.count.val := by omega
      rw [reached, eq_of_val same]

end Header

/-- Until the level comes to `2^31` the count is the level. A release that leaves nothing answers that the object is
dead, any other one that it is alive, and the program ends by the first one that finds nothing to release. From the
retain on by which the level comes to `2^31`, the header is immortal: releases change nothing, and retains count as far
as the low half of the word goes. So as many releases as retains restore the count if it stays below `2^31`, and only
then. -/
theorem count_follows_level (c : Count) (lower : 0 ≤ c.val) (upper : c.val < 2 ^ 31) (calls : List CountCall) :
    ((∀ p, p <+: calls → level c.val p ≠ 2 ^ 31) →
      (Header.run ⟨c⟩ calls = none ↔ ∃ p, p <+: calls ∧ level c.val p = -1) ∧
      ∀ k, Header.run ⟨c⟩ calls = some k →
        k.count.val = level c.val calls ∧ k.isImmortal = false ∧
        (k.call .release).1 =
          (if level c.val calls = 0 then .aborted
            else .released (if level c.val calls = 1 then .dead else .alive)) ∧
        k.lastWords = if level c.val calls = 0 then some "negative reference count -1" else none) ∧
    (∀ before later, calls = before ++ CountCall.retain :: later →
      (∀ p, p <+: before → level c.val p ≠ -1 ∧ level c.val p ≠ 2 ^ 31) →
      level c.val (before ++ [CountCall.retain]) = 2 ^ 31 →
      ∃ k, Header.run ⟨c⟩ calls = some k ∧ k.isImmortal = true ∧
        k.count.val = min (2 ^ 31 + (later.count .retain : Int)) (2 ^ 32 - 1) ∧
        k.call .release = (.released .alive, k) ∧ k.lastWords = none) ∧
    ∀ n : Nat, Header.run ⟨c⟩ (List.replicate n CountCall.retain ++ List.replicate n CountCall.release) =
      some ⟨c⟩ ↔ c.val + n < 2 ^ 31 := by
  refine ⟨fun below => ?_, fun before later split inside reaches => ?_, Header.run_up_and_down rfl lower upper⟩
  · rcases Header.run_of_below (h := ⟨c⟩) rfl lower upper below with
      ⟨ended, gone⟩ | ⟨never, k, reached, counts, above, under⟩
    · refine ⟨⟨fun _ => gone, fun _ => ended⟩, fun k reached => ?_⟩
      rw [ended] at reached
      cases reached
    · refine ⟨⟨fun ended => ?_, fun ⟨p, part, gone⟩ => absurd gone (never p part)⟩, fun m same => ?_⟩
      · rw [reached] at ended
        cases ended
      · obtain rfl : k = m := Option.some.inj (reached.symm.trans same)
        have mortal := Header.mortal_of_lt above under
        obtain ⟨answer, -, words⟩ := Header.call_release_cases mortal above
        rw [← counts]
        exact ⟨rfl, mortal, answer, words⟩
  · subst split
    obtain ⟨k, reached, saturated⟩ :=
      Header.run_of_reaching (h := ⟨c⟩) rfl lower upper inside reaches later
    have immortal := saturated.isImmortal
    refine ⟨k, reached, immortal, saturated, Header.call_release_of_immortal immortal, ?_⟩
    rw [Header.lastWords, Header.release_of_immortal immortal]

/-- A count that comes down from `2^31 - 1` once before it reaches `2^31`, and one that is released too often. -/
theorem count_follows_level_both_ends :
    (∃ k, Header.run ⟨⟨2 ^ 31 - 2, by decide, by decide⟩⟩
        [.retain, .release, .retain, .retain, .release, .retain, .release] = some k ∧
      k.isImmortal = true ∧ k.count.val = 2 ^ 31 + 1) ∧
    Header.run ⟨.one⟩ [.release, .release, .retain] = none := by
  obtain ⟨-, reaching, -⟩ := count_follows_level ⟨2 ^ 31 - 2, by decide, by decide⟩ (by decide) (by decide)
    [.retain, .release, .retain, .retain, .release, .retain, .release]
  obtain ⟨counting, -, -⟩ := count_follows_level .one (by decide) (by decide) [.release, .release, .retain]
  have inside : ∀ p, p <+: [CountCall.retain, .release, .retain] →
      level (2 ^ 31 - 2) p ≠ -1 ∧ level (2 ^ 31 - 2) p ≠ 2 ^ 31 := by
    simp only [← List.mem_inits]
    decide
  have below : ∀ p, p <+: [CountCall.release, .release, .retain] → level 1 p ≠ 2 ^ 31 := by
    simp only [← List.mem_inits]
    decide
  obtain ⟨k, reached, immortal, counts, -⟩ :=
    reaching [.retain, .release, .retain] [.release, .retain, .release] rfl inside (by decide)
  obtain ⟨ends, -⟩ := counting below
  exact ⟨⟨k, reached, immortal, counts⟩, ends.mpr ⟨[.release, .release], by decide, by decide⟩⟩

end Activation
