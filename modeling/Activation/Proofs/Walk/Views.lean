import Activation.Proofs.Stack.Chain
import Activation.Proofs.Walk.Path

/-! # Two views of the stack

The call stack follows the predecessors alone; a snapshot leaves them at the first live awaiter.

* `World.Coded f`: a record of the frame has the code of the frame.
* `World.Leads.follow`: a walk keeps to the chain as long as nothing leads away from it.
* `World.Leads.callStack_eq`, `World.Leads.snapshot_names_eq`: both views of a chain that nothing leaves.
* `World.Leads.snapshot_detour`: the snapshot of a chain that is left at an awaiter.
-/

namespace Activation
set_option autoImplicit false

variable {ε : Type}

namespace World

def Coded (w : World ε) (f : FrameId) : Prop :=
  ∀ r, (w.frame f).record = some r → (w.record r).code = (w.frame f).code

variable {w v : World ε} {o : Option FrameId} {f : FrameId}

theorem entry_names (coded : w.Coded f) : w.entry .names f = ⟨(w.frame f).code.qualifiedName, none, none⟩ := by
  have name : (w.resolve f).qualifiedName = (w.frame f).code.qualifiedName := by
    unfold resolve
    split
    · next r recorded => rw [coded r recorded]
    · rfl
  show (⟨(w.resolve f).qualifiedName, none, none⟩ : StackEntry) = _
  rw [name]

theorem nextFrame_eq_prev (back : ∀ a, w.awaiter f = some a → (w.frame f).prev = some a) :
    w.nextFrame f = (w.frame f).prev := by
  unfold nextFrame
  cases awaited : w.awaiter f with
  | none => rfl
  | some a => exact (back a awaited).symm

/-! ## The call stack -/

theorem nativeChain_congr (links : ∀ f, (v.frame f).prev = (w.frame f).prev) (bound : v.maxDepth = w.maxDepth)
    (n : Nat) (seen : List FrameId) : v.nativeChain n o seen = w.nativeChain n o seen := by
  induction n generalizing o seen with
  | zero =>
    cases o with
    | none => rfl
    | some f => rw [nativeChain, nativeChain, bound]
  | succ n ih =>
    cases o with
    | none => rfl
    | some f => rw [nativeChain, nativeChain, links, ih]

theorem callStack_congr (codes : ∀ f, (v.frame f).code = (w.frame f).code)
    (links : ∀ f, (v.frame f).prev = (w.frame f).prev) (bound : v.maxDepth = w.maxDepth)
    (top : v.stack.current = w.stack.current) : v.callStack = w.callStack := by
  unfold callStack
  rw [nativeChain_congr links bound, top, bound]
  simp only [codes]

namespace Leads

variable {cs xs ys : List FrameId} {c a : FrameId}

theorem nativeChain_eq (leads : w.Leads o cs) (n : Nat) (seen : List FrameId) :
    w.nativeChain n o seen =
      if cs.length ≤ n then .ok (cs.reverse ++ seen) else .error (.depthExceeded w.maxDepth) := by
  induction leads generalizing n seen with
  | done => cases n <;> rfl
  | @step f fs rest ih =>
    cases n with
    | zero => rfl
    | succ n =>
      rw [nativeChain, ih, List.length_cons, List.reverse_cons, List.append_assoc, List.singleton_append]
      simp only [Nat.add_le_add_iff_right]

theorem callStack_eq (leads : w.Leads w.stack.current cs) :
    w.callStack =
      if cs.length ≤ w.maxDepth then .ok (cs.reverse.map fun f => (w.frame f).code)
      else .error (.depthExceeded w.maxDepth) := by
  rw [callStack, leads.nativeChain_eq, List.append_nil]
  split <;> rfl

/-! ## Snapshots of a chain -/

theorem follow (leads : w.Leads o (xs ++ ys)) (along : ∀ f ∈ xs, w.nextFrame f = (w.frame f).prev) :
    w.route o xs.length = xs ∧ w.Leads (w.path o xs.length) ys := by
  induction xs generalizing o with
  | nil => exact ⟨rfl, leads⟩
  | cons x xs ih =>
    cases leads with
    | step rest =>
      rw [← along x List.mem_cons_self] at rest
      obtain ⟨passed, onward⟩ := ih rest fun f mem => along f (List.mem_cons_of_mem x mem)
      rw [List.length_cons, route_succ, path_succ, passed]
      exact ⟨rfl, onward⟩

theorem path_eq_none_iff (leads : w.Leads o cs) (along : ∀ f ∈ cs, w.nextFrame f = (w.frame f).prev) (n : Nat) :
    w.path o n = none ↔ cs.length ≤ n := by
  constructor
  · intro ended
    by_contra short
    have split : cs.take n ++ cs.drop n = cs := List.take_append_drop n cs
    have rest : w.Leads (w.path o n) (cs.drop n) := by
      have parts := (split.symm ▸ leads).follow fun f mem => along f (List.mem_of_mem_take mem)
      rw [List.length_take_of_le (by omega)] at parts
      exact parts.2
    rw [ended] at rest
    have empty : cs.drop n = [] := by
      cases left : cs.drop n with
      | nil => rfl
      | cons f fs =>
        rw [left] at rest
        cases rest
    exact short (List.drop_eq_nil_iff.mp empty)
  · intro long
    have whole : w.Leads o (cs ++ []) := (List.append_nil cs).symm ▸ leads
    have ended : w.path o cs.length = none := (whole.follow along).2.head?_eq.symm
    exact path_eq_none_of_le ended long

theorem snapshot_names_eq (leads : w.Leads w.stack.current cs) (coded : ∀ f ∈ cs, w.Coded f)
    (along : ∀ f ∈ cs, w.nextFrame f = (w.frame f).prev) :
    (w.snapshot .names).1 = w.callStack.map (List.map fun code => ⟨code.qualifiedName, none, none⟩) := by
  have named : cs.reverse.map (w.entry .names) =
      (cs.reverse.map fun f => (w.frame f).code).map fun code => ⟨code.qualifiedName, none, none⟩ := by
    rw [List.map_map]
    exact List.map_congr_left fun f mem => entry_names (coded f (List.mem_reverse.mp mem))
  rw [snapshot_eq, leads.callStack_eq]
  simp only [leads.path_eq_none_iff along]
  split
  · next short =>
    have whole : w.Leads w.stack.current (cs ++ []) := (List.append_nil cs).symm ▸ leads
    have ended := (leads.path_eq_none_iff along cs.length).mpr (Nat.le_refl _)
    rw [route_of_ended ended short, (whole.follow along).1, ← List.map_reverse, named]
    rfl
  · rfl

/-- Where the chain is left for an awaiter, the path goes on from there. -/
theorem snapshot_detour {detail : Detail} {es : List StackEntry} (leads : w.Leads w.stack.current (xs ++ c :: ys))
    (free : ∀ f ∈ xs, w.awaiter f = none) (awaited : w.awaiter c = some a)
    (reported : (w.snapshot detail).1 = .ok es) :
    ∃ outer, w.walkFrom (some a) (collect id) [] = (.ok outer.length, outer) ∧
      w.walkFrom w.stack.current (collect id) [] = (.ok (outer.length + (xs.length + 1)), outer ++ c :: xs.reverse) ∧
      es = (outer ++ c :: xs.reverse).map (w.entry detail) := by
  have along : ∀ f ∈ xs, w.nextFrame f = (w.frame f).prev := by
    intro f mem
    apply nextFrame_eq_prev
    rw [free f mem]
    nofun
  obtain ⟨passed, rest⟩ := leads.follow along
  have here : w.path w.stack.current xs.length = some c := rest.head?_eq.symm
  have left : w.path w.stack.current (xs.length + 1) = some a := by
    rw [path, here, Option.bind_some, nextFrame, awaited]
    rfl
  rw [snapshot_eq] at reported
  split at reported
  case isFalse => cases reported
  case isTrue ended =>
    have beyond : xs.length + 1 ≤ w.maxDepth := by
      by_contra short
      rw [path_eq_none_of_le ended (show w.maxDepth ≤ xs.length by omega)] at here
      cases here
    obtain ⟨k, bound⟩ := Nat.exists_eq_add_of_le beyond
    have gone : w.path (some a) k = none := by rw [← left, ← path_add, ← bound, ended]
    have outer : w.route (some a) w.maxDepth = w.route (some a) k := route_of_ended gone (by omega)
    have whole : w.route w.stack.current w.maxDepth = xs ++ c :: w.route (some a) k := by
      rw [bound, route_add, route_add, passed, here, left, List.append_assoc]
      rfl
    refine ⟨(w.route (some a) k).reverse, ?_, ?_, ?_⟩
    · rw [walkFrom_collect, if_pos (path_eq_none_of_le gone (by omega)), outer, List.map_id, List.length_reverse]
    · rw [walkFrom_collect, if_pos ended, whole]
      simp only [List.map_id, List.reverse_append, List.reverse_cons, List.length_append, List.length_cons,
        List.length_reverse, List.append_assoc, List.singleton_append]
      congr 2
      omega
    · cases reported
      rw [whole]
      simp only [List.map_append, List.map_cons, List.reverse_append, List.reverse_cons, List.map_reverse,
        List.append_assoc, List.singleton_append]

end Leads

end World

/-! ## Where the views agree -/

theorem views_agree (w : World ε) (cs : List FrameId) (leads : w.Leads w.stack.current cs)
    (coded : ∀ f ∈ cs, w.Coded f) :
    (w.callStack =
      if cs.length ≤ w.maxDepth then .ok (cs.reverse.map fun f => (w.frame f).code)
      else .error (.depthExceeded w.maxDepth)) ∧
    -- Nobody awaits a frame of the chain.
    ((∀ f ∈ cs, w.awaiter f = none) →
      (w.snapshot .names).1 = w.callStack.map (List.map fun code => ⟨code.qualifiedName, none, none⟩)) ∧
    -- The frame `c` is the first one that is awaited.
    (∀ xs c ys a, cs = xs ++ c :: ys → (∀ f ∈ xs, w.awaiter f = none) → w.awaiter c = some a →
      ∀ detail es, (w.snapshot detail).1 = .ok es →
        ∃ outer, w.walkFrom (some a) (World.collect id) [] = (.ok outer.length, outer) ∧
          w.walkFrom w.stack.current (World.collect id) [] =
            (.ok (outer.length + (xs.length + 1)), outer ++ c :: xs.reverse) ∧
          es = (outer ++ c :: xs.reverse).map (w.entry detail) ∧
          ∀ f ∈ ys, f ∈ outer ++ c :: xs.reverse → ∃ i, w.path (some a) i = some f) ∧
    -- Whoever awaits a frame is its predecessor.
    ((∀ f ∈ cs, ∀ a, w.awaiter f = some a → (w.frame f).prev = some a) →
      (w.snapshot .names).1 = w.callStack.map (List.map fun code => ⟨code.qualifiedName, none, none⟩)) ∧
    (∀ v : World ε, v.stack = w.stack → v.maxDepth = w.maxDepth →
      (∀ f, v.frame f = { w.frame f with awaiter := (v.frame f).awaiter }) → v.callStack = w.callStack) := by
  refine ⟨leads.callStack_eq, ?_, ?_, ?_, ?_⟩
  · intro free
    apply leads.snapshot_names_eq coded
    intro f mem
    apply World.nextFrame_eq_prev
    rw [free f mem]
    nofun
  · rintro xs c ys a rfl free awaited detail es reported
    obtain ⟨outer, from_awaiter, from_top, entries⟩ := leads.snapshot_detour free awaited reported
    refine ⟨outer, from_awaiter, from_top, entries, ?_⟩
    intro f below seen
    have apart : f ∉ c :: xs.reverse := by
      obtain ⟨-, later, distinct⟩ := List.nodup_append.mp leads.nodup
      intro mem
      rcases List.mem_cons.mp mem with rfl | above
      · exact (List.nodup_cons.mp later).1 below
      · exact distinct f (List.mem_reverse.mp above) f (List.mem_cons_of_mem c below) rfl
    have visited : outer = (w.route (some a) w.maxDepth).reverse := by
      rw [World.walkFrom_collect, List.map_id] at from_awaiter
      exact (congrArg Prod.snd from_awaiter).symm
    rcases List.mem_append.mp seen with there | not_there
    · rw [visited, List.mem_reverse, World.mem_route] at there
      obtain ⟨i, -, position⟩ := there
      exact ⟨i, position⟩
    · exact absurd not_there apart
  · intro back
    exact leads.snapshot_names_eq coded fun f mem => World.nextFrame_eq_prev (back f mem)
  · intro v stack bound same
    have codes : ∀ f, (v.frame f).code = (w.frame f).code := fun f => by rw [same]
    have links : ∀ f, (v.frame f).prev = (w.frame f).prev := fun f => by rw [same]
    exact World.callStack_congr codes links bound (by rw [stack])

/-- A chain of three frames; the middle one is awaited by a frame whose way leads back to the last one. -/
def World.detour : World Unit :=
  { records := Store.empty.insert { code := ⟨"app", "leaf", none, 0, 1, []⟩ }
    frames := (((Store.empty.insert
      { code := ⟨"app", "leaf", none, 0, 1, []⟩, record := some 0, prev := some 1 }).insert
      { code := ⟨"app", "task", none, 0, 2, []⟩, prev := some 2, awaiter := some 3 }).insert
      { code := ⟨"app", "main", none, 0, 3, []⟩ }).insert
      { code := ⟨"app", "parent", none, 0, 4, []⟩, awaiter := some 2 }
    stack := ⟨some 0, 3⟩
    maxDepth := 4
    host := () }

theorem views_agree_detour :
    World.detour.Leads (some 0) [0, 1, 2] ∧ (∀ f ∈ [0, 1, 2], World.detour.Coded f) ∧
      ∃ outer, World.detour.walkFrom (some 3) (World.collect id) [] = (.ok outer.length, outer) ∧
        World.detour.walkFrom (some 0) (World.collect id) [] = (.ok (outer.length + 2), outer ++ [1, 0]) ∧
        (World.detour.snapshot .names).1 = .ok ((outer ++ [1, 0]).map (World.detour.entry .names)) := by
  have leads : World.detour.Leads (some 0) [0, 1, 2] := .step (.step (.step .done))
  have coded : ∀ f ∈ [0, 1, 2], World.detour.Coded f := by
    show ∀ f ∈ [0, 1, 2], ∀ r ∈ (World.detour.frame f).record,
      (World.detour.record r).code = (World.detour.frame f).code
    decide
  obtain ⟨-, -, detour, -, -⟩ := views_agree World.detour [0, 1, 2] leads coded
  obtain ⟨outer, from_awaiter, from_top, entries, -⟩ :=
    detour [0] 1 [2] 3 rfl (by decide) (by decide) .names _ rfl
  exact ⟨leads, coded, outer, from_awaiter, from_top, congrArg Except.ok entries⟩

end Activation
