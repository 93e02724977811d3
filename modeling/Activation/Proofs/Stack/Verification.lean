import Activation.Proofs.Stack.Chain
import Mathlib.Data.Set.Card

/-! # What the check of the chain finds

The links may form any graph, so the chain need not end. Its check comes to an end because it refuses a frame that it
has seen, and there are only so many frames.

* `World.Rounds o fs k`: from `o` the links lead over the frames `fs`, each of them once, and then end or come back.
* `World.exists_rounds`: so it is from everywhere; `World.Rounds.onChain_iff`: the frames are those on the chain.
* `World.Rounds.verifyFrom_eq`: what the check finds on the way.
* `verifyChain_decides`: what it reports, for any links, depth and limit.
-/

namespace Activation
set_option autoImplicit false

variable {ε : Type}

namespace World

variable {w : World ε} {o k : Option FrameId} {f g : FrameId} {fs gs : List FrameId}

structure Rounds (w : World ε) (o : Option FrameId) (fs : List FrameId) (k : Option FrameId) : Prop where
  passes : w.Passes o fs k
  distinct : fs.Nodup
  back : ∀ f, k = some f → f ∈ fs

/-! ## Ways put together and taken apart -/

namespace Passes

theorem concat (passes : w.Passes o fs (some f)) : w.Passes o (fs ++ [f]) (w.frame f).prev := by
  generalize last : some f = k at passes
  induction passes with
  | done =>
    subst last
    exact .step .done
  | step _ ih => exact .step (ih last)

theorem split (passes : w.Passes o (fs ++ f :: gs) k) : w.Passes o fs (some f) := by
  induction fs generalizing o with
  | nil => exact passes.head_eq ▸ .done
  | cons h fs ih =>
    cases passes with
    | step rest => exact .step (ih rest)

theorem chainFrom_eq (passes : w.Passes o fs k) : w.chainFrom fs.length o = fs := by
  induction passes with
  | done => rfl
  | step _ ih => rw [List.length_cons, chainFrom, ih]

theorem first (passes : w.Passes (some g) fs k) : g ∈ fs ∨ k = some g := by
  cases passes with
  | done => exact .inr rfl
  | step => exact .inl List.mem_cons_self

theorem next (passes : w.Passes o fs k) (mem : f ∈ fs) (link : (w.frame f).prev = some g) :
    g ∈ fs ∨ k = some g := by
  induction passes with
  | done => cases mem
  | @step h fs k rest ih =>
    rcases List.mem_cons.mp mem with rfl | later
    · exact (link ▸ rest).first.imp_left (List.mem_cons_of_mem f)
    · exact (ih later).imp_left (List.mem_cons_of_mem h)

/-- A way that ends goes on from wherever a part of it leads. -/
theorem rest (passes : w.Passes o fs k) (leads : w.Leads o gs) : ∃ hs, gs = fs ++ hs ∧ w.Leads k hs := by
  induction passes generalizing gs with
  | done => exact ⟨gs, rfl, leads⟩
  | @step f fs k _ ih =>
    cases leads with
    | step onward =>
      obtain ⟨hs, rfl, leads⟩ := ih onward
      exact ⟨hs, rfl, leads⟩

theorem leads (passes : w.Passes o fs none) : w.Leads o fs := by
  generalize last : none = k at passes
  induction passes with
  | done =>
    subst last
    exact .done
  | step _ ih => exact .step (ih last)

/-- Every new frame leaves fewer to be seen. -/
theorem exists_rounds {fs : List FrameId} {k : Option FrameId} (passes : w.Passes o fs k) (distinct : fs.Nodup) :
    ∃ gs m, w.Rounds o gs m := by
  by_cases fresh : ∃ f, k = some f ∧ f ∉ fs
  · obtain ⟨f, rfl, new⟩ := fresh
    have longer : (fs ++ [f]).Nodup := by
      rw [← List.concat_eq_append]
      exact distinct.concat new
    have few : fs.length + 1 ≤ w.chainBound := by
      simpa only [List.length_append, List.length_singleton] using passes.concat.length_le longer
    exact exists_rounds passes.concat longer
  · exact ⟨fs, k, passes, distinct, fun f here => by_contra fun new => fresh ⟨f, here, new⟩⟩
termination_by w.chainBound - fs.length
decreasing_by
  rw [List.length_append, List.length_singleton]
  omega

/-- The check stops at a frame that it has seen, or that is one too many. -/
theorem verifyFrom_stuck (passes : w.Passes o fs (some f)) (distinct : fs.Nodup) {limit n : Nat}
    (enough : fs.length ≤ n) (within : fs.length ≤ limit) (stuck : f ∈ fs ∨ limit ≤ fs.length) :
    w.verifyFrom limit n 0 {} o = .error (.corruptChain fs.length) := by
  obtain ⟨m, rfl⟩ := Nat.exists_eq_add_of_le enough
  rw [passes.verifyFrom_eq distinct (fun _ _ => Std.HashSet.contains_empty) (by omega), Nat.zero_add]
  cases m with
  | zero => rfl
  | succ m =>
    have refused : ((({} : Std.HashSet FrameId).insertMany fs).contains f || decide (limit ≤ fs.length)) = true := by
      rw [Std.HashSet.contains_insertMany_list, Std.HashSet.contains_empty, Bool.false_or, Bool.or_eq_true,
        List.contains_iff_mem, decide_eq_true_iff]
      exact stuck
    rw [verifyFrom, refused]
    rfl

end Passes

/-! ## Rounds -/

theorem exists_rounds (w : World ε) (o : Option FrameId) : ∃ fs k, w.Rounds o fs k :=
  Passes.done.exists_rounds List.nodup_nil

namespace Rounds

theorem leads_iff (rounds : w.Rounds o fs k) : w.Leads o gs ↔ k = none ∧ gs = fs := by
  constructor
  · intro leads
    obtain ⟨hs, rfl, onward⟩ := rounds.passes.rest leads
    cases onward with
    | done => exact ⟨rfl, List.append_nil fs⟩
    | @step f hs _ =>
      -- the way would go over `f` twice
      have apart := (List.nodup_append.mp leads.nodup).2.2
      exact absurd rfl (apart f (rounds.back f rfl) f List.mem_cons_self)
  · rintro ⟨rfl, rfl⟩
    exact rounds.passes.leads

theorem exists_leads (rounds : w.Rounds o fs k) (p : Nat → Prop) :
    (∃ gs, w.Leads o gs ∧ p gs.length) ↔ k = none ∧ p fs.length := by
  constructor
  · rintro ⟨gs, leads, holds⟩
    obtain ⟨ends, rfl⟩ := rounds.leads_iff.mp leads
    exact ⟨ends, holds⟩
  · rintro ⟨ends, holds⟩
    exact ⟨fs, rounds.leads_iff.mpr ⟨ends, rfl⟩, holds⟩

theorem onChain_iff (rounds : w.Rounds w.stack.current fs k) : w.OnChain f ↔ f ∈ fs := by
  constructor
  · rintro ⟨n, mem⟩
    refine chainFrom_subset (fun f here g link => ?_) n _ (fun g top => ?_) mem
    · exact (rounds.passes.next here link).elim id (rounds.back g)
    · exact (top ▸ rounds.passes).first.elim id (rounds.back g)
  · intro mem
    refine ⟨fs.length, ?_⟩
    rw [rounds.passes.chainFrom_eq]
    exact mem

theorem ncard_onChain (rounds : w.Rounds w.stack.current fs k) : {f | w.OnChain f}.ncard = fs.length := by
  have frames : {f | w.OnChain f} = (fs.toFinset : Set FrameId) := by
    rw [List.coe_toFinset]
    exact Set.ext fun f => rounds.onChain_iff
  rw [frames, Set.ncard_coe_finset, List.toFinset_card_of_nodup rounds.distinct]

theorem finite_onChain (rounds : w.Rounds w.stack.current fs k) : {f | w.OnChain f}.Finite :=
  (List.finite_toSet fs).subset fun _ on => rounds.onChain_iff.mp on

theorem verifyFrom_eq (rounds : w.Rounds o fs k) {limit n : Nat} (enough : w.chainBound ≤ n) :
    w.verifyFrom limit n 0 {} o =
      if k = none ∧ fs.length ≤ limit then .ok fs.length else .error (.corruptChain (min limit fs.length)) := by
  have few := rounds.passes.length_le rounds.distinct
  by_cases short : fs.length ≤ limit
  · cases k with
    | none =>
      rw [if_pos ⟨rfl, short⟩]
      exact rounds.passes.leads.verifyFrom_eq (by omega) short
    | some f =>
      rw [if_neg fun ends => Option.some_ne_none f ends.1, Nat.min_eq_right short]
      exact rounds.passes.verifyFrom_stuck rounds.distinct (by omega) short (.inl (rounds.back f rfl))
  · -- the first frame beyond the limit
    obtain ⟨f, rest, beyond⟩ : ∃ f rest, fs.drop limit = f :: rest :=
      ⟨fs[limit], fs.drop (limit + 1), List.drop_eq_getElem_cons (by omega)⟩
    have parts : fs.take limit ++ f :: rest = fs := beyond ▸ List.take_append_drop limit fs
    have length : (fs.take limit).length = limit := List.length_take_of_le (by omega)
    have stuck : w.verifyFrom limit n 0 {} o = .error (.corruptChain (fs.take limit).length) :=
      (parts ▸ rounds.passes).split.verifyFrom_stuck (rounds.distinct.sublist (List.take_sublist limit fs))
        (by omega) (by omega) (.inr (by omega))
    rw [if_neg fun ends => short ends.2, Nat.min_eq_left (by omega), stuck, length]

theorem verifyChain_eq (rounds : w.Rounds w.stack.current fs k) (limit : Nat) :
    w.verifyChain limit =
      if k = none ∧ fs.length ≤ limit then
        if w.stack.depth = fs.length then .ok fs.length else .error (.depthMismatch w.stack.depth fs.length)
      else .error (.corruptChain (min limit fs.length)) := by
  rw [verifyChain, rounds.verifyFrom_eq (Nat.le_refl _)]
  by_cases ends : k = none ∧ fs.length ≤ limit
  · rw [if_pos ends, if_pos ends]
  · rw [if_neg ends, if_neg ends]

end Rounds

end World

/-! ## The report -/

/-- The check reports the number of frames if the chain ends within the limit and the stack tracks as many, and both
numbers if it tracks another one. On any other chain it gives up: at the limit, or when it has seen every frame there
is to see. More rounds than there are frames change nothing. -/
theorem verifyChain_decides (w : World ε) (limit : Nat) :
    (∀ n, w.verifyChain limit = .ok n ↔
      (∃ fs, w.Leads w.stack.current fs ∧ fs.length = n) ∧ n ≤ limit ∧ w.stack.depth = n) ∧
    (∀ t n, w.verifyChain limit = .error (.depthMismatch t n) ↔
      (∃ fs, w.Leads w.stack.current fs ∧ fs.length = n) ∧ n ≤ limit ∧ w.stack.depth = t ∧ t ≠ n) ∧
    (∀ d, w.verifyChain limit = .error (.corruptChain d) ↔
      (¬ ∃ fs, w.Leads w.stack.current fs ∧ fs.length ≤ limit) ∧ d = min limit {f | w.OnChain f}.ncard) ∧
    {f | w.OnChain f}.Finite ∧
    ∀ more, w.verifyFrom limit (w.chainBound + more) 0 {} w.stack.current =
      w.verifyFrom limit w.chainBound 0 {} w.stack.current := by
  obtain ⟨fs, k, rounds⟩ := w.exists_rounds w.stack.current
  have counts := fun n => rounds.exists_leads (· = n)
  have within := rounds.exists_leads (· ≤ limit)
  rw [rounds.ncard_onChain, rounds.verifyChain_eq limit]
  refine ⟨fun n => ?_, fun t n => ?_, fun d => ?_, rounds.finite_onChain, fun more => ?_⟩
  · rw [counts]
    grind
  · rw [counts]
    grind
  · rw [within]
    grind
  · rw [rounds.verifyFrom_eq (Nat.le_add_right _ _), rounds.verifyFrom_eq (Nat.le_refl _)]

/-- The last of three frames leads back to the second. -/
def World.lasso : World Unit :=
  { frames := ((Store.empty.insert { code := ⟨"app", "leaf", none, 0, 1, []⟩, prev := some 1 }).insert
      { code := ⟨"app", "task", none, 0, 2, []⟩, prev := some 2 }).insert
      { code := ⟨"app", "main", none, 0, 3, []⟩, prev := some 1 }
    stack := ⟨some 0, 3⟩
    host := () }

theorem verifyChain_decides_lasso :
    World.lasso.verifyChain 9 = .error (.corruptChain 3) ∧ World.lasso.verifyChain 2 = .error (.corruptChain 2) := by
  have rounds : World.lasso.Rounds World.lasso.stack.current [0, 1, 2] (some 1) := by
    refine ⟨.step (.step (.step .done)), by decide, fun f again => ?_⟩
    cases again
    decide
  have frames : {f | World.lasso.OnChain f}.ncard = 3 := rounds.ncard_onChain
  have endless (limit : Nat) : ¬ ∃ fs, World.lasso.Leads World.lasso.stack.current fs ∧ fs.length ≤ limit := by
    rw [rounds.exists_leads (· ≤ limit)]
    exact fun ends => Option.some_ne_none 1 ends.1
  exact ⟨((verifyChain_decides World.lasso 9).2.2.1 3).mpr ⟨endless 9, by rw [frames]; rfl⟩,
    ((verifyChain_decides World.lasso 2).2.2.1 2).mpr ⟨endless 2, by rw [frames]; rfl⟩⟩

end Activation
