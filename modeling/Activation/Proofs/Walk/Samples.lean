import Activation.Proofs.Stack.Chain
import Activation.Proofs.Walk.Path

/-! # Samples of a stack

Two bounds hold the view along awaiters. The walk checks its own before it shows a frame, and the visitor checks the
capacity when it is shown one frame too many; a capacity below the depth bound therefore ends the walk first.

* `World.shown_sampler`: what the visitor has seen after any list of frames.
* `World.stopsAt_sampler`: the visitor stops at every position from the capacity on.
* `World.samples_eq`: both views, in terms of the route and of the chain.
-/

namespace Activation
set_option autoImplicit false

variable {ε : Type}

namespace World

variable {w : World ε} {start : Option FrameId} {capacity i : Nat}

theorem willing_sampler (w : World ε) (capacity : Nat) : Willing (w.sampler capacity) := by
  intro f seen
  unfold sampler
  split
  · exact ⟨.stop, rfl⟩
  · exact ⟨.onward, rfl⟩

/-- A frame beyond the capacity leaves the visitor as it is. -/
theorem shown_sampler (w : World ε) (fs : List FrameId) (seen : List StackSample) {n : Nat} (room : n ≤ capacity) :
    shown (w.sampler capacity) fs (seen, n) =
      (((fs.take (capacity - n)).map w.sample).reverse ++ seen, min capacity (n + fs.length)) := by
  induction fs generalizing seen n with
  | nil => simp [shown, room]
  | cons f fs ih =>
    show shown (w.sampler capacity) fs (w.sampler capacity f (seen, n)).2 = _
    by_cases full : capacity ≤ n
    · have same : (w.sampler capacity f (seen, n)).2 = (seen, n) := by rw [sampler, if_pos full]
      obtain rfl : n = capacity := by omega
      rw [same, ih seen room]
      simp
    · have more : (w.sampler capacity f (seen, n)).2 = (w.sample f :: seen, n + 1) := by rw [sampler, if_neg full]
      obtain ⟨left, rfl⟩ := Nat.exists_eq_add_of_lt (Nat.not_le.mp full)
      have rest : n + left + 1 - (n + 1) = left := by omega
      have all : n + left + 1 - n = left + 1 := by omega
      have count : n + 1 + fs.length = n + (fs.length + 1) := by omega
      rw [more, ih (w.sample f :: seen) (by omega), rest, all, count, List.take_succ_cons, List.length_cons]
      simp

theorem stopsAt_sampler :
    w.StopsAt start (w.sampler capacity) ([], 0) i ↔ (w.path start i).isSome ∧ capacity ≤ i := by
  have stops (there : (w.path start i).isSome) (f : FrameId) :
      (w.sampler capacity f (shown (w.sampler capacity) (w.route start i) ([], 0))).1 = .ok .stop ↔ capacity ≤ i := by
    rw [shown_sampler w _ _ (Nat.zero_le capacity),
      length_route fun j earlier => path_isSome_of_le there (Nat.le_of_lt earlier), Nat.zero_add, sampler]
    split
    · next full => exact ⟨fun _ => (Nat.le_min.mp full).2, fun _ => rfl⟩
    · next room =>
      refine ⟨fun onward => ?_, fun full => absurd (Nat.le_min.mpr ⟨Nat.le_refl _, full⟩) room⟩
      cases onward
  constructor
  · rintro ⟨f, here, stopped⟩
    have there : (w.path start i).isSome := by rw [here]; rfl
    exact ⟨there, (stops there f).mp stopped⟩
  · rintro ⟨there, full⟩
    obtain ⟨f, here⟩ := Option.isSome_iff_exists.mp there
    exact ⟨f, here, (stops there f).mpr full⟩

/-- The walk has room for every frame, or reaches its own bound before it lacks room. -/
theorem walkFrom_sampler_onward (below : w.path start capacity = none ∨ w.maxDepth ≤ capacity) :
    w.walkFrom start (w.sampler capacity) ([], 0) =
      (if w.path start w.maxDepth = none then .ok (w.route start w.maxDepth).length
        else .error (.depthExceeded w.maxDepth),
      shown (w.sampler capacity) (w.route start w.maxDepth) ([], 0)) := by
  refine walkFrom_of_onward (willing_sampler w capacity) fun i within stops => ?_
  obtain ⟨there, full⟩ := stopsAt_sampler.mp stops
  rcases below with ended | bounded
  · rw [path_eq_none_of_le ended full] at there
    cases there
  · omega

theorem walkFrom_sampler_stop (more : w.path start capacity ≠ none) (below : capacity < w.maxDepth) :
    w.walkFrom start (w.sampler capacity) ([], 0) =
      (.ok (capacity + 1), shown (w.sampler capacity) (w.route start (capacity + 1)) ([], 0)) := by
  refine walkFrom_of_stop (willing_sampler w capacity)
    (stopsAt_sampler.mpr ⟨Option.isSome_iff_ne_none.mpr more, Nat.le_refl _⟩) (fun j sooner stops => ?_) below
  have full := (stopsAt_sampler.mp stops).2
  omega

theorem shown_route_sampler (n : Nat) :
    (shown (w.sampler capacity) (w.route start n) ([], 0)).1.reverse =
      ((w.route start n).take capacity).map w.sample := by
  rw [shown_sampler w _ _ (Nat.zero_le capacity), List.append_nil, List.reverse_reverse, Nat.sub_zero]

theorem samples_eq (w : World ε) (capacity : Nat) :
    (w.samples capacity).1 =
      if w.path w.stack.current w.maxDepth ≠ none ∧ w.maxDepth ≤ capacity then .error (.depthExceeded w.maxDepth)
      else .ok ⟨(w.route w.stack.current capacity).map w.sample,
        (w.chainFrom capacity w.stack.current).map w.sample⟩ := by
  simp only [samples]
  by_cases stops : w.path w.stack.current capacity ≠ none ∧ capacity < w.maxDepth
  · obtain ⟨more, below⟩ := stops
    rw [walkFrom_sampler_stop more below, if_neg (by omega), shown_route_sampler, take_route (.inr (Nat.le_succ _))]
    rfl
  · have below : w.path w.stack.current capacity = none ∨ w.maxDepth ≤ capacity := by
      rwa [not_and_or, not_not, Nat.not_lt] at stops
    rw [walkFrom_sampler_onward below, shown_route_sampler]
    by_cases ended : w.path w.stack.current w.maxDepth = none
    · rw [if_pos ended, if_neg (fun both => both.1 ended), take_route (.inl ended)]
      rfl
    · have bounded : w.maxDepth ≤ capacity := by
        rcases below with short | bounded
        · by_contra deep
          exact ended (path_eq_none_of_le short (by omega))
        · exact bounded
      rw [if_neg ended, if_pos ⟨ended, bounded⟩]
      rfl

/-- A frame is sampled with its own code and the line that this code has for the place where the frame stands. -/
theorem sample_eq (w : World ε) (f : FrameId) : w.sample f = ⟨(w.frame f).code,
    (w.frame f).code.lineFor ((w.frame f).record.elim (w.frame f).ip fun r => (w.record r).lastInstr)⟩ := by
  rw [sample, line, lastInstr_elim]

end World

theorem samples_under_bounds (w : World ε) (cs : List FrameId) (leads : w.Leads w.stack.current cs) (capacity : Nat) :
    ((w.samples capacity).1 = .error (.depthExceeded w.maxDepth) ↔
      w.path w.stack.current w.maxDepth ≠ none ∧ w.maxDepth ≤ capacity) ∧
    (¬ (w.path w.stack.current w.maxDepth ≠ none ∧ w.maxDepth ≤ capacity) →
      ∃ s, (w.samples capacity).1 = .ok s ∧
        (∀ i, s.suspended[i]? =
          if i < capacity then (w.path w.stack.current i).map fun f => ⟨(w.frame f).code, (w.frame f).code.lineFor
            ((w.frame f).record.elim (w.frame f).ip fun r => (w.record r).lastInstr)⟩ else none) ∧
        s.native = (cs.take capacity).map fun f => ⟨(w.frame f).code, (w.frame f).code.lineFor
          ((w.frame f).record.elim (w.frame f).ip fun r => (w.record r).lastInstr)⟩) := by
  rw [w.samples_eq capacity, leads.chainFrom_take]
  constructor
  · split
    · next bounded => exact ⟨fun _ => bounded, fun _ => rfl⟩
    · next free =>
      refine ⟨fun failed => ?_, fun bounded => absurd bounded free⟩
      cases failed
  · intro free
    rw [if_neg free, funext w.sample_eq]
    refine ⟨_, rfl, fun i => ?_, rfl⟩
    rw [List.getElem?_map, World.getElem?_route, apply_ite (Option.map _)]
    rfl

/-- The ring goes on for ever along awaiters, but its chain is one frame. Both frames are away from their definitions:
the inner one by its own pointer, and the outer one by its record. -/
theorem samples_under_bounds_ring :
    World.ring.Leads (some 0) [0] ∧ (World.ring.samples 3).1 = .error (.depthExceeded 3) ∧
      ∃ s, (World.ring.samples 2).1 = .ok s ∧
        s.suspended[1]? = some ⟨⟨"app", "inner", none, 0, 5, [⟨0, 6⟩, ⟨2, 8⟩]⟩, some 8⟩ ∧
        s.native = [⟨⟨"app", "outer", none, 0, 1, [⟨0, 1⟩, ⟨4, 3⟩]⟩, some 3⟩] := by
  have leads : World.ring.Leads (some 0) [0] := .step .done
  obtain ⟨s, sampled, suspended, native⟩ := (samples_under_bounds World.ring [0] leads 2).2 (by decide)
  exact ⟨leads, (samples_under_bounds World.ring [0] leads 3).1.mpr (by decide), s, sampled,
    (suspended 1).trans (by decide), native.trans (by decide)⟩

end Activation
