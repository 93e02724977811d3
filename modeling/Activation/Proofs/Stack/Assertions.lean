import Activation.Proofs.Play
import Activation.Proofs.Stack.Steps

/-! # What a push refuses

A push looks at the link of the frame and at the top of the stack. The outermost frame has no link, so it can be
pushed again while it is on the chain, and the chain then runs in a circle.

* `World.Tracks.refuses_iff_onChain`: a push refuses the frames on the chain, but for the outermost of several.
* `World.Tracks.isEndless_of_push`: an accepted push closes the chain to a circle exactly if the frame is on it.
* `push_refuses_iff`: the same for every program; `push_accepts_outermost`: a program where it happens.
-/

namespace Activation
set_option autoImplicit false

variable {ε : Type}

namespace World.Tracks

variable {w v : World ε} {f : FrameId} {fs : List FrameId}

theorem isEndless_iff (tracks : w.Tracks fs) : w.isEndless = true ↔ ¬ fs.Nodup := by
  rw [isEndless_eq_true_iff, tracks.nodup_iff]

/-- On a chain that runs in a circle every frame has a link. -/
theorem mem_dropLast_of_circle (tracks : w.Tracks fs) (circle : ¬ fs.Nodup) (mem : f ∈ fs) : f ∈ fs.dropLast := by
  by_contra other
  have last : fs.getLast? = some f := by
    by_contra above
    exact other (List.mem_dropLast_of_mem_of_ne_getLast? mem (Ne.symm above))
  refine circle ?_
  rw [← List.dropLast_append_getLast? f last, ← List.concat_eq_append]
  exact tracks.once.concat other

theorem refuses_iff_onChain (tracks : w.Tracks fs) :
    w.Refuses f ↔ w.OnChain f ∧ ∀ gs, w.Leads w.stack.current gs → gs.getLast? = some f → gs = [f] := by
  rw [tracks.refuses_iff, tracks.onChain_iff]
  constructor
  · intro refused
    refine ⟨refused.elim (fun inner => List.dropLast_subset fs inner) List.mem_of_mem_head?, fun gs leads last => ?_⟩
    have distinct := tracks.nodup_iff.mpr ⟨gs, leads⟩
    obtain rfl := (tracks.leads distinct).unique leads
    have bottom : f ∉ fs.dropLast := fun inner => ((mem_dropLast_iff distinct).mp inner).2 last
    have top := refused.resolve_left bottom
    match fs, top, bottom with
    | [_], rfl, _ => rfl
    | _ :: _ :: _, rfl, bottom => exact absurd List.mem_cons_self bottom
  · rintro ⟨mem, outermost⟩
    by_cases distinct : fs.Nodup
    · by_cases last : fs.getLast? = some f
      · rw [outermost fs (tracks.leads distinct) last]
        exact .inr rfl
      · exact .inl ((mem_dropLast_iff distinct).mpr ⟨mem, last⟩)
    · exact .inl (tracks.mem_dropLast_of_circle distinct mem)

theorem isEndless_of_push (tracks : w.Tracks fs) (ok : w.push f = .ok v) (has : w.Has (.frame f)) :
    v.isEndless = true ↔ w.OnChain f ∨ w.isEndless = true := by
  rw [(tracks.pushed ok has).isEndless_iff, tracks.isEndless_iff, tracks.onChain_iff, List.nodup_cons]
  tauto

end World.Tracks

/-- A push is refused exactly if the frame is on the chain, unless it is the outermost of several frames, and a refused
push changes nothing. Any other push puts the frame on top of the old one and leaves all other links as they are. It
makes the chain endless if the frame was on it. -/
theorem push_refuses_iff (host : ε) {ls : List Label} {c : Config ε} {f : FrameId}
    (reached : Run (Config.start host) ls c) (has : c.world.Has (.frame f)) :
    ((∃ p, c.world.push f = .error p) ↔ c.world.OnChain f ∧
      ∀ gs, c.world.Leads c.world.stack.current gs → gs.getLast? = some f → gs = [f]) ∧
    (∀ p d, c.world.push f = .error p → Step c (.op (.push f)) d → d.world = c.world) ∧
    ∀ v, c.world.push f = .ok v →
      v.stack = ⟨some f, c.world.stack.depth + 1⟩ ∧
      (∀ k, (v.frame k).prev = if k = f then c.world.stack.current else (c.world.frame k).prev) ∧
      (v.isEndless = true ↔ c.world.OnChain f ∨ c.world.isEndless = true) := by
  have tracks := reached.tracks (Config.start_sound host) (Config.start_tracks host)
  refine ⟨World.push_eq_error_iff.trans tracks.refuses_iff_onChain, fun p d failed step => ?_, fun v ok =>
    ⟨World.stack_of_push ok, World.prev_of_push ok has, tracks.isEndless_of_push ok has⟩⟩
  cases step with
  | op => simp only [Op.run, failed]

/-- Of two frames on the stack the upper one cannot be pushed again. -/
theorem push_refuses_iff_upper :
    ∃ (ls : List Label) (c : Config Unit), Run (Config.start ()) ls c ∧ c.world.Has (.frame 1) ∧
      c.world.chain = [1, 0] ∧ ∃ p, c.world.push 1 = .error p := by
  let code : Code := { module := "m", name := "f" }
  obtain ⟨ls, c, reached, holds⟩ := Config.exists_run
    (p := fun _ c => decide (c.world.Has (.frame 1)) && decide (c.world.chain = [1, 0]))
    [.call (.newFrame code none), .call (.newFrame code none), .call (.push 0), .call (.push 1)]
    (by decide +kernel : ((Config.start ()).playAll? _).any _ = true)
  simp only [Bool.and_eq_true, decide_eq_true_eq] at holds
  obtain ⟨has, chain⟩ := holds
  obtain ⟨refused, -, -⟩ := push_refuses_iff () reached has
  refine ⟨ls, c, reached, has, chain, refused.mpr ⟨World.onChain_of_mem (by simp [chain]), fun gs leads last => ?_⟩⟩
  rw [← leads.chain_eq, chain] at last
  cases last

/-- The lower one can, though it is on the chain, and then the chain runs in a circle. -/
theorem push_accepts_outermost :
    ∃ (ls : List Label) (c : Config Unit) (v : World Unit), Run (Config.start ()) ls c ∧ c.world.Has (.frame 0) ∧
      c.world.chain = [1, 0] ∧ c.world.OnChain 0 ∧ c.world.push 0 = .ok v ∧ v.stack.depth = 3 ∧
      v.isEndless = true := by
  let code : Code := { module := "m", name := "f" }
  let circles (v : World Unit) : Bool := decide (v.stack.depth = 3) && v.isEndless
  obtain ⟨ls, c, reached, holds⟩ := Config.exists_run
    (p := fun _ c => decide (c.world.Has (.frame 0)) && decide (c.world.chain = [1, 0]) &&
      (c.world.push 0).toOption.any circles)
    [.call (.newFrame code none), .call (.newFrame code none), .call (.push 0), .call (.push 1)]
    (by decide +kernel : ((Config.start ()).playAll? _).any _ = true)
  unfold circles at holds
  simp only [Option.any_eq_true, Bool.and_eq_true, decide_eq_true_eq] at holds
  obtain ⟨⟨has, chain⟩, v, accepted, depth, endless⟩ := holds
  refine ⟨ls, c, v, reached, has, chain, World.onChain_of_mem (by simp [chain]), ?_, depth, endless⟩
  cases result : c.world.push 0 with
  | error p => rw [result] at accepted; cases accepted
  | ok u => rw [result] at accepted; cases accepted; rfl

end Activation
