import Activation.Proofs.Handles.Contexts
import Mathlib.Data.List.Perm.Subperm

/-! # The chain of the stack

From the top of the stack the links of the frames lead outwards.

* `World.Leads o fs`: from `o` the links lead over the frames `fs`, and end after the last of them.
* `World.Passes o fs k`: from `o` the links lead over the frames `fs` to `k`, wherever they go from there.
* `World.OnChain f`: who follows the links from the top of the stack comes to the frame.
* `World.Leads.chain_eq`, `World.Leads.verifyChain_eq`: a chain that ends is reported as it is, and verified.
* `World.isEndless_eq_true_iff`: all other chains are reported as endless.
-/

namespace Activation.World
set_option autoImplicit false

variable {ε : Type} {w : World ε} {o : Option FrameId} {f : FrameId} {fs gs : List FrameId}

inductive Leads (w : World ε) : Option FrameId → List FrameId → Prop where
  | done : Leads w none []
  | step {f : FrameId} {fs : List FrameId} (rest : Leads w (w.frame f).prev fs) : Leads w (some f) (f :: fs)

inductive Passes (w : World ε) : Option FrameId → List FrameId → Option FrameId → Prop where
  | done {o : Option FrameId} : Passes w o [] o
  | step {f : FrameId} {fs : List FrameId} {k : Option FrameId} (rest : Passes w (w.frame f).prev fs k) :
      Passes w (some f) (f :: fs) k

def OnChain (w : World ε) (f : FrameId) : Prop := ∃ n, f ∈ w.chainFrom n w.stack.current

theorem onChain_of_mem (mem : f ∈ w.chain) : w.OnChain f := ⟨w.chainBound, mem⟩

/-- A chain does not leave a list that holds the predecessors of its frames. -/
theorem chainFrom_subset (closed : ∀ f ∈ fs, ∀ g, (w.frame f).prev = some g → g ∈ fs) (n : Nat) (o : Option FrameId)
    (inside : ∀ f, o = some f → f ∈ fs) : w.chainFrom n o ⊆ fs := by
  induction n generalizing o with
  | zero => exact List.nil_subset fs
  | succ n ih =>
    cases o with
    | none => exact List.nil_subset fs
    | some f =>
      have here := inside f rfl
      exact List.cons_subset.mpr ⟨here, ih _ (closed f here)⟩

theorem lt_next_of_prev {k : FrameId} (link : (w.frame f).prev = some k) : f < w.frames.next :=
  w.frames.lt_next (get?_of_prev link)

/-! ## Ways -/

namespace Passes

variable {k : Option FrameId}

theorem head_eq (passes : w.Passes o (f :: fs) k) : o = some f := by
  cases passes
  rfl

theorem linked (passes : w.Passes o fs k) (mem : f ∈ fs.dropLast) : ∃ g, (w.frame f).prev = some g := by
  induction passes with
  | done => cases mem
  | @step h fs k rest ih =>
    cases fs with
    | nil => cases mem
    | cons g gs =>
      rw [List.dropLast_cons_cons] at mem
      rcases List.mem_cons.mp mem with rfl | later
      · exact ⟨g, rest.head_eq⟩
      · exact ih later

theorem length_le (passes : w.Passes o fs k) (distinct : fs.Nodup) : fs.length ≤ w.chainBound := by
  -- the last frame need not be in the store: nobody looks at a link of it
  have stored : fs.dropLast ⊆ List.range w.frames.next := by
    intro f mem
    obtain ⟨g, link⟩ := passes.linked mem
    exact List.mem_range.mpr (lt_next_of_prev link)
  have inner : fs.dropLast.Nodup := distinct.sublist (List.dropLast_sublist fs)
  have few := (List.subperm_of_subset inner stored).length_le
  rw [List.length_dropLast, List.length_range] at few
  unfold chainBound
  omega

/-- The check goes over frames that it has not seen as long as there are not too many of them. -/
theorem verifyFrom_eq (passes : w.Passes o fs k) {limit depth : Nat} {seen : Std.HashSet FrameId}
    (distinct : fs.Nodup) (unseen : ∀ f ∈ fs, seen.contains f = false) (within : depth + fs.length ≤ limit) (n : Nat) :
    w.verifyFrom limit (fs.length + n) depth seen o =
      w.verifyFrom limit n (depth + fs.length) (seen.insertMany fs) k := by
  induction passes generalizing depth seen with
  | done => rw [List.length_nil, Nat.zero_add, Nat.add_zero, Std.HashSet.insertMany_nil]
  | @step f fs k rest ih =>
    obtain ⟨apart, distinct⟩ := List.nodup_cons.mp distinct
    rw [List.length_cons] at within
    have first : (seen.contains f || decide (limit ≤ depth)) = false := by
      rw [unseen f List.mem_cons_self, Bool.false_or, decide_eq_false_iff_not]
      omega
    have later : ∀ g ∈ fs, (seen.insert f).contains g = false := by
      intro g mem
      have other : f ≠ g := fun same => apart (same ▸ mem)
      rw [Std.HashSet.contains_insert, unseen g (List.mem_cons_of_mem f mem), Bool.or_false]
      exact beq_false_of_ne other
    rw [List.length_cons, Nat.add_right_comm, verifyFrom, first, Std.HashSet.insertMany_cons,
      ← Nat.add_assoc, Nat.add_right_comm depth]
    exact ih distinct later (by omega)

end Passes

/-! ## Ways that end -/

namespace Leads

theorem head?_eq (leads : w.Leads o fs) : fs.head? = o := by
  cases leads <;> rfl

theorem unique (leads : w.Leads o fs) (again : w.Leads o gs) : fs = gs := by
  induction leads generalizing gs with
  | done =>
    cases again
    rfl
  | step _ ih =>
    cases again with
    | step rest => rw [ih rest]

theorem of_mem (leads : w.Leads o fs) (mem : f ∈ fs) : ∃ gs, w.Leads (some f) gs ∧ gs.length ≤ fs.length := by
  induction leads with
  | done => cases mem
  | @step k fs rest ih =>
    rcases List.mem_cons.mp mem with rfl | later
    · exact ⟨f :: fs, .step rest, Nat.le_refl _⟩
    · obtain ⟨gs, onward, shorter⟩ := ih later
      exact ⟨gs, onward, Nat.le_succ_of_le shorter⟩

theorem nodup (leads : w.Leads o fs) : fs.Nodup := by
  induction leads with
  | done => exact List.nodup_nil
  | @step f fs rest ih =>
    refine List.nodup_cons.mpr ⟨fun back => ?_, ih⟩
    -- the way onward from there is the whole way again, so the whole would be shorter than itself
    obtain ⟨gs, again, shorter⟩ := rest.of_mem back
    rw [again.unique (.step rest), List.length_cons] at shorter
    omega

theorem passes (leads : w.Leads o fs) : w.Passes o fs none := by
  induction leads with
  | done => exact .done
  | step _ ih => exact .step ih

theorem length_le (leads : w.Leads o fs) : fs.length ≤ w.chainBound := leads.passes.length_le leads.nodup

theorem chainFrom_take (leads : w.Leads o fs) (n : Nat) : w.chainFrom n o = fs.take n := by
  induction leads generalizing n with
  | done => cases n <;> rfl
  | step _ ih =>
    cases n with
    | zero => rfl
    | succ n => rw [chainFrom, ih, List.take_succ_cons]

theorem chainFrom_eq (leads : w.Leads o fs) {n : Nat} (enough : fs.length ≤ n) : w.chainFrom n o = fs := by
  rw [leads.chainFrom_take, List.take_of_length_le enough]

theorem chain_eq (leads : w.Leads w.stack.current fs) : w.chain = fs := leads.chainFrom_eq leads.length_le

theorem verifyFrom_eq (leads : w.Leads o fs) {limit n : Nat} (enough : fs.length ≤ n) (within : fs.length ≤ limit) :
    w.verifyFrom limit n 0 {} o = .ok fs.length := by
  obtain ⟨m, rfl⟩ := Nat.exists_eq_add_of_le enough
  rw [leads.passes.verifyFrom_eq leads.nodup (fun _ _ => Std.HashSet.contains_empty) (by omega), Nat.zero_add]
  cases m <;> rfl

theorem verifyChain_eq (leads : w.Leads w.stack.current fs) (depth : w.stack.depth = fs.length) {limit : Nat}
    (within : w.stack.depth ≤ limit) : w.verifyChain limit = .ok w.stack.depth := by
  rw [verifyChain, leads.verifyFrom_eq leads.length_le (by omega), ← depth]
  exact if_pos rfl

end Leads

/-! ## Ways that never end -/

theorem leads_of_length_lt {n : Nat} (ended : (w.chainFrom n o).length < n) : w.Leads o (w.chainFrom n o) := by
  induction n generalizing o with
  | zero => cases ended
  | succ n ih =>
    cases o with
    | none => exact .done
    | some f => exact .step (ih (Nat.lt_of_succ_lt_succ ended))

theorem isEndless_eq_true_iff : w.isEndless = true ↔ ¬ ∃ fs, w.Leads w.stack.current fs := by
  rw [isEndless, decide_eq_true_iff]
  refine ⟨fun long ⟨fs, leads⟩ => ?_, fun endless => ?_⟩
  · rw [leads.chainFrom_eq (Nat.le_succ_of_le leads.length_le)] at long
    exact Nat.not_lt.mpr leads.length_le long
  · by_contra short
    exact endless ⟨_, leads_of_length_lt (n := w.chainBound + 1) (by omega)⟩

end Activation.World
