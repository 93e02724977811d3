import Activation.Proofs.Lifecycle.Stacking
import Activation.Proofs.Stack.Chain

/-! # The frames that the stack tracks

The stack is a list of frames, spread out over its top, its depth and the links of the frames.

* `World.Tracks fs`: the stack is the list `fs`, with the top first.
* `World.SameStack`: top, depth and all links are the same.
* `Tracks.pushed`, `Tracks.popped`, `Tracks.kept`: the list after a push, after a pop, and after all else.
* `Tracks.onChain_iff`, `Tracks.nodup_iff`: the frames of the list are those on the chain, and the chain ends if none
  of them occurs twice.
-/

namespace Activation
set_option autoImplicit false

variable {ε : Type}

namespace World

/-- All frames but the last link to the next one. -/
def Linked (w : World ε) (fs : List FrameId) : Prop :=
  (fs.dropLast.map fun f => (w.frame f).prev) = fs.tail.map some

/-- No other frame has a link, and only the last frame may occur twice. -/
structure Tracks (w : World ε) (fs : List FrameId) : Prop where
  top : w.stack.current = fs.head?
  depth : w.stack.depth = fs.length
  linked : w.Linked fs
  loose : ∀ f, f ∉ fs.dropLast → (w.frame f).prev = none
  once : fs.dropLast.Nodup

/-- What a push is refused for. -/
def Refuses (w : World ε) (f : FrameId) : Prop := (w.frame f).isLinked = true ∨ w.stack.current = some f

structure SameStack (w v : World ε) : Prop where
  stack : v.stack = w.stack
  links : ∀ f, (v.frame f).prev = (w.frame f).prev

variable {w v : World ε} {f : FrameId} {fs gs : List FrameId}

theorem mem_dropLast_iff (distinct : fs.Nodup) : f ∈ fs.dropLast ↔ f ∈ fs ∧ fs.getLast? ≠ some f := by
  refine ⟨fun inner => ⟨List.dropLast_subset fs inner, fun last => ?_⟩,
    fun ⟨mem, above⟩ => List.mem_dropLast_of_mem_of_ne_getLast? mem (Ne.symm above)⟩
  rw [← List.dropLast_append_getLast? f last] at distinct
  exact (List.nodup_append.mp distinct).2.2 f inner f (List.mem_singleton_self f) rfl

/-! ## Following the links of a list -/

theorem linked_cons {k : FrameId} : w.Linked (f :: k :: fs) ↔ (w.frame f).prev = some k ∧ w.Linked (k :: fs) := by
  simp only [Linked, List.dropLast_cons_cons, List.map_cons, List.tail_cons, List.cons.injEq]

theorem Linked.congr (linked : w.Linked fs) (same : ∀ f ∈ fs.dropLast, (v.frame f).prev = (w.frame f).prev) :
    v.Linked fs :=
  (List.map_congr_left same).trans linked

theorem chainFrom_of_linked (linked : w.Linked fs) : w.chainFrom fs.length fs.head? = fs := by
  induction fs with
  | nil => rfl
  | cons f fs ih =>
    cases fs with
    | nil => rfl
    | cons k fs =>
      obtain ⟨link, later⟩ := linked_cons.mp linked
      have rest := ih later
      rw [List.head?_cons] at rest
      rw [List.length_cons, List.head?_cons, chainFrom, link, rest]

theorem leads_of_linked (linked : w.Linked fs) (bottom : ∀ z, fs.getLast? = some z → (w.frame z).prev = none) :
    w.Leads fs.head? fs := by
  induction fs with
  | nil => exact .done
  | cons f fs ih =>
    refine .step ?_
    cases fs with
    | nil =>
      rw [bottom f rfl]
      exact .done
    | cons k fs =>
      obtain ⟨link, later⟩ := linked_cons.mp linked
      rw [link]
      exact ih later fun z last => bottom z (by rw [List.getLast?_cons_cons]; exact last)

/-- A way that ends goes over all frames of the list. -/
theorem Leads.extends (leads : w.Leads fs.head? gs) (linked : w.Linked fs) : fs <+: gs := by
  induction fs generalizing gs with
  | nil => exact List.nil_prefix
  | cons f fs ih =>
    cases leads with
    | step rest =>
      refine List.cons_prefix_cons.mpr ⟨rfl, ?_⟩
      cases fs with
      | nil => exact List.nil_prefix
      | cons k fs =>
        obtain ⟨link, later⟩ := linked_cons.mp linked
        rw [link] at rest
        exact ih rest later

/-! ## Links after a push and a pop -/

theorem not_refuses_of_push (ok : w.push f = .ok v) : ¬ w.Refuses f := by
  unfold push at ok
  split at ok
  · cases ok
  split at ok
  · cases ok
  next unlinked apart => exact not_or.mpr ⟨unlinked, apart⟩

theorem push_eq_error_iff : (∃ p, w.push f = .error p) ↔ w.Refuses f := by
  refine ⟨fun ⟨p, failed⟩ => ?_, fun refuses => ?_⟩
  · by_contra free
    obtain ⟨unlinked, apart⟩ := not_or.mp free
    rw [push, if_neg unlinked, if_neg apart] at failed
    cases failed
  · cases result : w.push f with
    | error p => exact ⟨p, rfl⟩
    | ok v => exact absurd refuses (not_refuses_of_push result)

theorem enter_eq_error_iff : (∃ p, w.enter f = .error p) ↔ w.Refuses f := by
  rw [← push_eq_error_iff, enter]
  cases w.push f <;> simp [Except.map]

theorem not_refuses_of_enter (ok : w.enter f = .ok v) : ¬ w.Refuses f := fun refuses => by
  obtain ⟨p, failed⟩ := enter_eq_error_iff.mpr refuses
  rw [failed] at ok
  cases ok

theorem stack_of_push (ok : w.push f = .ok v) : v.stack = ⟨some f, w.stack.depth + 1⟩ := by
  obtain ⟨unlinked, apart⟩ := not_or.mp (not_refuses_of_push ok)
  rw [push, if_neg unlinked, if_neg apart] at ok
  cases ok
  rfl

theorem prev_of_push (ok : w.push f = .ok v) (has : w.Has (.frame f)) (k : FrameId) :
    (v.frame k).prev = if k = f then w.stack.current else (w.frame k).prev := by
  obtain ⟨unlinked, apart⟩ := not_or.mp (not_refuses_of_push ok)
  obtain ⟨x, found⟩ := Option.isSome_iff_exists.mp has
  rw [push, if_neg unlinked, if_neg apart] at ok
  cases ok
  by_cases same : k = f
  · subst same
    simp [setStack, holdFrame, modifyFrame, frame, Store.get?_modify, found]
  · simp [setStack, holdFrame, modifyFrame, frame, Store.get?_modify, Ne.symm same, same]

theorem stack_pop (top : w.stack.current = some f) : w.pop.2.stack = ⟨(w.frame f).prev, w.stack.depth - 1⟩ := by
  simp [pop, top, setStack]

theorem prev_pop (top : w.stack.current = some f) (k : FrameId) :
    (w.pop.2.frame k).prev = if k = f then none else (w.frame k).prev := by
  by_cases same : k = f
  · subst same
    rw [if_pos rfl]
    exact (popped_of_pop top).link
  · simp [pop, top, setStack, modifyFrame, frame, Store.get?_modify, Ne.symm same, same]

/-! ## What the list tells -/

namespace Tracks

theorem nil (current : w.stack.current = none) (depth : w.stack.depth = 0) (bare : ∀ f, (w.frame f).prev = none) :
    w.Tracks [] :=
  ⟨current, depth, rfl, fun f _ => bare f, List.nodup_nil⟩

theorem stack_eq (tracks : w.Tracks fs) : w.stack = ⟨fs.head?, fs.length⟩ := by
  rw [← tracks.top, ← tracks.depth]

theorem eq_chainFrom (tracks : w.Tracks fs) : fs = w.chainFrom w.stack.depth w.stack.current := by
  rw [tracks.depth, tracks.top]
  exact (chainFrom_of_linked tracks.linked).symm

theorem exists_next (tracks : w.Tracks fs) (mem : f ∈ fs.dropLast) : ∃ k ∈ fs, (w.frame f).prev = some k := by
  have there : (w.frame f).prev ∈ fs.tail.map some := tracks.linked ▸ List.mem_map_of_mem mem
  obtain ⟨k, next, link⟩ := List.mem_map.mp there
  exact ⟨k, List.mem_of_mem_tail next, link.symm⟩

theorem isLinked_iff (tracks : w.Tracks fs) : (w.frame f).isLinked = true ↔ f ∈ fs.dropLast := by
  refine ⟨fun linked => ?_, fun mem => ?_⟩
  · by_contra other
    rw [Frame.isLinked, tracks.loose f other] at linked
    cases linked
  · obtain ⟨k, -, link⟩ := tracks.exists_next mem
    rw [Frame.isLinked, link]
    rfl

theorem onChain_iff (tracks : w.Tracks fs) : w.OnChain f ↔ f ∈ fs := by
  have closed : ∀ g ∈ fs, ∀ k, (w.frame g).prev = some k → k ∈ fs := by
    intro g _ k link
    have inner : g ∈ fs.dropLast := by
      rw [← tracks.isLinked_iff, Frame.isLinked, link]
      rfl
    obtain ⟨j, mem, same⟩ := tracks.exists_next inner
    cases link.symm.trans same
    exact mem
  constructor
  · rintro ⟨n, found⟩
    exact chainFrom_subset closed n _ (fun k top => List.mem_of_mem_head? (tracks.top ▸ top)) found
  · intro mem
    exact ⟨w.stack.depth, tracks.eq_chainFrom ▸ mem⟩

theorem leads (tracks : w.Tracks fs) (distinct : fs.Nodup) : w.Leads w.stack.current fs := by
  rw [tracks.top]
  exact leads_of_linked tracks.linked fun z last => tracks.loose z fun inner =>
    ((mem_dropLast_iff distinct).mp inner).2 last

theorem nodup_iff (tracks : w.Tracks fs) : fs.Nodup ↔ ∃ gs, w.Leads w.stack.current gs := by
  refine ⟨fun distinct => ⟨fs, tracks.leads distinct⟩, fun ⟨gs, leads⟩ => ?_⟩
  rw [tracks.top] at leads
  exact leads.nodup.sublist (leads.extends tracks.linked).sublist

/-- The list says all about the stack. -/
theorem sameStack (tracks : w.Tracks fs) (again : v.Tracks fs) : w.SameStack v where
  stack := again.stack_eq.trans tracks.stack_eq.symm
  links f := by
    by_cases inner : f ∈ fs.dropLast
    · exact List.map_inj_left.mp (again.linked.trans tracks.linked.symm) f inner
    · rw [again.loose f inner, tracks.loose f inner]

theorem congr (tracks : w.Tracks fs) (same : w.SameStack v) : v.Tracks fs where
  top := by rw [same.stack, tracks.top]
  depth := by rw [same.stack, tracks.depth]
  linked := tracks.linked.congr fun f _ => same.links f
  loose f other := by rw [same.links, tracks.loose f other]
  once := tracks.once

/-! ## Push and pop -/

theorem pushed (tracks : w.Tracks fs) (ok : w.push f = .ok v) (has : w.Has (.frame f)) : v.Tracks (f :: fs) := by
  obtain ⟨unlinked, -⟩ := not_or.mp (not_refuses_of_push ok)
  have new : f ∉ fs.dropLast := fun inner => unlinked (tracks.isLinked_iff.mpr inner)
  have own : (v.frame f).prev = fs.head? := by rw [prev_of_push ok has, if_pos rfl, tracks.top]
  have others : ∀ k, k ≠ f → (v.frame k).prev = (w.frame k).prev := fun k other => by
    rw [prev_of_push ok has, if_neg other]
  -- the frame may be the last of the list, which has no link to lose
  have later : v.Linked fs := tracks.linked.congr fun k inner => others k fun same => new (same ▸ inner)
  have stack := stack_of_push ok
  refine ⟨by rw [stack, List.head?_cons], by rw [stack, List.length_cons, ← tracks.depth], ?_, fun k other => ?_, ?_⟩
  · cases fs with
    | nil => rfl
    | cons k fs => exact linked_cons.mpr ⟨own, later⟩
  · cases fs with
    | nil =>
      by_cases same : k = f
      · rw [same, own, List.head?_nil]
      · rw [others k same, tracks.loose k List.not_mem_nil]
    | cons j fs =>
      obtain ⟨apart, beyond⟩ := not_or.mp (mt List.mem_cons.mpr other)
      rw [others k apart, tracks.loose k beyond]
  · cases fs with
    | nil => exact List.nodup_nil
    | cons k fs => exact List.nodup_cons.mpr ⟨new, tracks.once⟩

theorem popped (tracks : w.Tracks fs) : w.pop.2.Tracks fs.tail := by
  cases fs with
  | nil =>
    have empty : w.pop.2 = w := by simp [pop, tracks.top]
    rw [empty]
    exact tracks
  | cons f fs =>
    have top : w.stack.current = some f := tracks.top
    have links := prev_pop top
    have stack := stack_pop top
    cases fs with
    | nil =>
      have bottom := tracks.loose f List.not_mem_nil
      refine .nil (by rw [stack, bottom]) (by rw [stack, tracks.depth]; rfl) fun k => ?_
      rw [links]
      split
      · rfl
      · exact tracks.loose k List.not_mem_nil
    | cons k fs =>
      obtain ⟨link, later⟩ := linked_cons.mp tracks.linked
      obtain ⟨apart, once⟩ := List.nodup_cons.mp tracks.once
      refine ⟨by rw [stack, link]; rfl, by rw [stack, tracks.depth]; rfl, ?_, fun j other => ?_, once⟩
      · refine later.congr fun j inner => ?_
        rw [links, if_neg fun same : j = f => apart (same ▸ inner)]
      · rw [links]
        split
        · rfl
        · next same => exact tracks.loose j fun mem => (List.mem_cons.mp mem).elim same other

/-! ## Everything else -/

theorem has (tracks : w.Tracks fs) {out : Multiset Handle} (acc : Accounted v out) (stack : v.stack = w.stack)
    (links : ∀ k, v.Has (.frame k) → (v.frame k).prev = (w.frame k).prev) (mem : f ∈ fs) : v.Has (.frame f) := by
  have first : ∀ k, fs.head? = some k → v.Has (.frame k) := fun k top =>
    acc.has_of_stack (by rw [stack, tracks.top, top])
  have linked := tracks.linked
  clear tracks
  -- the stack holds the first frame, and every frame the next one
  induction fs with
  | nil => cases mem
  | cons k fs ih =>
    have here := first k rfl
    rcases List.mem_cons.mp mem with rfl | later
    · exact here
    · cases fs with
      | nil => cases later
      | cons j fs =>
        obtain ⟨link, rest⟩ := linked_cons.mp linked
        refine ih later (fun i top => ?_) rest
        cases top
        exact acc.has_prev ((links k here).trans link)

theorem kept (tracks : w.Tracks fs) {F : Footprint} {out : Multiset Handle} (steady : Steady F w v)
    (stack : ¬ F.stack) (links : ∀ k, ¬ F.links k) (acc : Accounted v out) : v.Tracks fs := by
  have same := steady.stack.resolve_left stack
  have alive : ∀ f ∈ fs, v.Has (.frame f) := fun f =>
    tracks.has acc same fun k has => steady.prev_eq (links k) has
  refine tracks.congr ⟨same, fun f => ?_⟩
  cases found : v.frames.get? f with
  | some y => exact steady.prev_eq (links f) (Option.isSome_iff_exists.mpr ⟨y, found⟩)
  | none =>
    -- a frame that is gone was not on the list
    have dead : ¬ v.Has (.frame f) := by simp [Has, found]
    have other : f ∉ fs.dropLast := fun inner => dead (alive f (List.dropLast_subset fs inner))
    rw [tracks.loose f other]
    simp [World.frame, found, Frame.absent]

end Tracks

end World

end Activation
