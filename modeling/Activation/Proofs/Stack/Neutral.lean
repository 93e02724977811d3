import Activation.Proofs.Play
import Activation.Proofs.Stack.Steps

/-! # Requests and the stack

A request to resume puts the frame of the context on the stack and takes it off again.

* `StackOp.suffix_apply`, `Kept.tracks_above`: as long as the stack gets no lower than it was, what was there stays.
* `World.OnTop`: the stack at the begin of a turn.
* `resume_stack_neutral`: if the body leaves the stack as it found it, the request does as well.
-/

namespace Activation
set_option autoImplicit false

variable {ε : Type}

/-! ## Above a given depth -/

theorem StackOp.suffix_apply {base fs : List FrameId} (op : StackOp) (under : base <:+ fs)
    (high : base.length ≤ (apply fs op).length) : base <:+ apply fs op := by
  have pushed : ∀ f, base <:+ pushOn fs f := fun f => by
    unfold pushOn
    split
    · exact under
    · exact under.trans (List.suffix_cons f fs)
  have popped : base.length ≤ fs.tail.length → base <:+ fs.tail :=
    List.suffix_of_suffix_length_le under (List.tail_suffix fs)
  cases op with
  | push f => exact pushed f
  | pop => exact popped high
  | enter f => exact pushed f
  | leave f => exact popped high

theorem Kept.tracks_above {c d : Config ε} {ls : List Label} {base : List FrameId}
    (kept : Kept (fun e _ => base.length ≤ e.world.stack.depth) c ls d) (sound : c.Sound)
    (tracks : c.world.Tracks base) :
    ∃ fs, d.world.Tracks fs ∧ (base.length ≤ d.world.stack.depth → base <:+ fs) := by
  induction kept with
  | nil => exact ⟨base, tracks, fun _ => List.suffix_rfl⟩
  | @snoc ls l d e init step high ih =>
    obtain ⟨fs, here, under⟩ := ih
    have after := step.tracks (init.run.sound sound) here
    refine ⟨_, after, fun still => ?_⟩
    rw [after.depth] at still
    unfold Label.track at still ⊢
    cases moves : l.stackOp with
    | none => exact under high
    | some op =>
      rw [moves, Option.elim_some] at still
      exact op.suffix_apply (under high) still

/-! ## Turns -/

namespace World.Tracks

variable {w v : World ε} {f : FrameId} {fs : List FrameId}

theorem prev_top (tracks : w.Tracks (f :: fs)) : (w.frame f).prev = fs.head? := by
  cases fs with
  | nil => exact tracks.loose f List.not_mem_nil
  | cons k fs => exact (linked_cons.mp tracks.linked).1

/-- One frame more on the stack changes the link of that frame. -/
theorem prev_other (tracks : w.Tracks fs) (more : v.Tracks (f :: fs)) {k : FrameId} (other : k ≠ f) :
    (v.frame k).prev = (w.frame k).prev := by
  have same := (tracks.sameStack more.popped).links k
  rwa [prev_pop more.top, if_neg other] at same

end World.Tracks

/-- The stack at the begin of a turn: the frame of the context is on top of what was there. -/
structure World.OnTop (w v : World ε) (f : FrameId) : Prop where
  current : v.stack.current = some f
  prev : (v.frame f).prev = w.stack.current
  depth : v.stack.depth = w.stack.depth + 1
  links : ∀ k, k ≠ f → (v.frame k).prev = (w.frame k).prev

theorem World.Tracks.onTop {w v : World ε} {f : FrameId} {fs : List FrameId} (tracks : w.Tracks fs)
    (more : v.Tracks (f :: fs)) : w.OnTop v f where
  current := more.top
  prev := by rw [more.prev_top, tracks.top]
  depth := by rw [more.depth, tracks.depth, List.length_cons]
  links _ := tracks.prev_other more

/-- The state of a program when a body takes over. -/
def Config.under (c : Config ε) (t : Turn) (w : World ε) (owned : Multiset Handle) : Config ε :=
  { c with world := w, turns := t :: c.turns, owned := owned }

namespace Config

variable {c : Config ε} {g : GenId} {inj : Injection} {external : Option RecordId} {rest : Multiset Handle}
  {fs : List FrameId}

theorem tracks_resume {program : Host ε} (sound : c.Sound) (tracks : c.world.Tracks fs)
    (takes : c.owned = .generator g ::ₘ ((inj.offered external : Multiset Handle) + rest))
    (neutral : ∀ t w, c.world.receive g inj external = .entered t w → ∃ ms d,
      program.Runs (fun _ _ => True) (c.under t w (↑inj.held + rest)) g t inj ms d ∧ w.SameStack d.world) :
    (c.world.resume program g inj external).2.Tracks fs := by
  cases received : c.world.receive g inj external with
  | answered result w =>
    have answer : c.world.resume program g inj external = World.settlePanic result w := by
      simp only [World.resume, World.attempt, received]
    rw [answer]
    exact (Step.answered takes received).tracks sound tracks
  | entered t w =>
    obtain ⟨ms, d, runs, same⟩ := neutral t w received
    have answer : c.world.resume program g inj external =
        d.world.finish t (program.step t.body g inj.input w).1 := by
      simp only [World.resume, World.attempt, received, World.finish, runs.world]
      rfl
    have first := Step.entered takes received
    obtain ⟨-, more⟩ := first.entered_tracks sound tracks
    obtain ⟨left, held⟩ := runs.takes
    have last := Step.ended runs.turns runs.balanced held
    rw [answer]
    exact last.tracks (runs.body.run.sound (first.sound sound)) (more.congr same)

theorem tracks_under {t : Turn} {w : World ε} (sound : c.Sound) (tracks : c.world.Tracks fs)
    (takes : c.owned = .generator g ::ₘ ((inj.offered external : Multiset Handle) + rest))
    (received : c.world.receive g inj external = .entered t w) :
    (c.under t w (↑inj.held + rest)).Sound ∧ t.frame = (c.world.generator g).frame ∧ w.Tracks (t.frame :: fs) := by
  have step := Step.entered takes received
  have acc := sound.accounted
  rw [c.outside_of_request takes] at acc
  obtain ⟨body, -, turn, -⟩ := World.receive_entered acc (Multiset.mem_cons_self _ _) sound.calm received
  exact ⟨step.sound sound, by rw [turn], (step.entered_tracks sound tracks).2⟩

end Config

/-- A request leaves the stack as it was, however it ends, if its body does. When the body takes over, its frame stands
on the frame that was current before. So it does whenever the body is back at that depth and has not gone below. -/
theorem resume_stack_neutral (host : ε) {ls : List Label} {c : Config ε} {g : GenId} {inj : Injection}
    {external : Option RecordId} {rest : Multiset Handle} {program : Host ε}
    (reached : Run (Config.start host) ls c)
    (takes : c.owned = .generator g ::ₘ ((inj.offered external : Multiset Handle) + rest))
    (neutral : ∀ t w, c.world.receive g inj external = .entered t w → ∃ ms d,
      program.Runs (fun _ _ => True) (c.under t w (↑inj.held + rest)) g t inj ms d ∧ w.SameStack d.world) :
    c.world.SameStack (c.world.resume program g inj external).2 ∧
    ∀ t w, c.world.receive g inj external = .entered t w →
      t.frame = (c.world.generator g).frame ∧ c.world.OnTop w t.frame ∧
      ∀ ms e, Kept (fun d _ => w.stack.depth ≤ d.world.stack.depth) (c.under t w (↑inj.held + rest)) ms e →
        e.world.stack.depth = w.stack.depth → w.SameStack e.world := by
  have sound := reached.sound (Config.start_sound host)
  have tracks := reached.tracks (Config.start_sound host) (Config.start_tracks host)
  refine ⟨tracks.sameStack (Config.tracks_resume sound tracks takes neutral), fun t w received => ?_⟩
  obtain ⟨begun, frame, more⟩ := Config.tracks_under sound tracks takes received
  refine ⟨frame, tracks.onTop more, fun ms e kept level => ?_⟩
  rw [more.depth] at kept level
  obtain ⟨gs, there, under⟩ := kept.tracks_above begun more
  have same := (under level.ge).eq_of_length (by rw [← level, there.depth])
  exact more.sameStack (same ▸ there)

/-! ## A host that plays -/

/-- Every body makes these moves and ends so. -/
def Host.playing (turns : List Turn) (owned : Multiset Handle) (ks : List Play) (ending : Ending) : Host ε where
  step := fun _ _ _ w => (ending, ((Config.mk w turns owned 0).playAll? ks).elim w fun r => r.2.world)
  build := fun _ _ ip w => (.error (.builder ip), w)

theorem Host.playing_runs {w : World ε} {turns : List Turn} {owned : Multiset Handle} {ks : List Play}
    {ending : Ending} {ls : List Label} {d : Config ε} {t : Turn} (g : GenId) (inj : Injection)
    (played : (Config.mk w turns owned 0).playAll? ks = some (ls, d)) (back : d.turns = turns)
    (balanced : d.world.stack.current = some t.frame) (enough : (ending.held : Multiset Handle) ≤ d.owned) :
    (Host.playing turns owned ks ending).Runs (fun _ _ => True) ⟨w, turns, owned, 0⟩ g t inj ls d where
  body := Kept.of_run (Config.run_of_playAll? played)
  world := by simp only [Host.playing, played, Option.elim_some]
  turns := back
  balanced := balanced
  takes := Multiset.le_iff_exists_add.mp enough
  kept _ _ := trivial

instance World.decidableSameStack (w v : World ε) : Decidable (w.SameStack v) :=
  decidable_of_iff
    (v.stack = w.stack ∧ ∀ f < max w.frames.next v.frames.next, (v.frame f).prev = (w.frame f).prev) <| by
    refine ⟨fun ⟨stack, links⟩ => ⟨stack, fun f => ?_⟩, fun same => ⟨same.stack, fun f _ => same.links f⟩⟩
    -- a frame with a link is in the store
    have none_of_le : ∀ u : World ε, u.frames.next ≤ f → (u.frame f).prev = none := fun u late => by
      by_contra linked
      obtain ⟨k, link⟩ := Option.ne_none_iff_exists'.mp linked
      exact Nat.not_lt.mpr late (lt_next_of_prev link)
    by_cases given : f < max w.frames.next v.frames.next
    · exact links f given
    · obtain ⟨late, late'⟩ := max_le_iff.mp (Nat.not_lt.mp given)
      rw [none_of_le w late, none_of_le v late']

/-- A body resumes another context, whose body pushes a frame, pops it and panics; then it panics itself. -/
theorem resume_stack_neutral_nested :
    ∃ (ls : List Label) (c : Config Unit) (program : Host Unit) (t : Turn) (w : World Unit),
      Run (Config.start ()) ls c ∧ c.world.receive 0 (.send nothing) none = .entered t w ∧
      c.world.OnTop w 0 ∧ c.world.stack.current = some 2 ∧
      (c.world.resume program 0 (.send nothing) none).1 = .panicked (.body "outer") ∧
      c.world.SameStack (c.world.resume program 0 (.send nothing) none).2 := by
  let code : Code := { module := "m", name := "f" }
  let turn : Turn := ⟨0, 0, 0, false⟩
  let ending : Ending := .panics (.body "outer")
  let rest : Multiset Handle := {.object nothing, .generator 1, .frame 2}
  let ks : List Play :=
    [.ask 1 (.send nothing) none, .call (.newFrame code none), .call (.push 3), .call .pop,
      .stop (.panics (.body "inner"))]
  let program : Host Unit := .playing [turn] (.object nothing ::ₘ rest) ks ending
  let goes (w : World Unit) : Bool :=
    ((Config.mk w [turn] (.object nothing ::ₘ rest) 0).playAll? ks).any fun r =>
      decide (r.2.turns = [turn]) && decide (r.2.world.stack.current = some 0) && decide (w.SameStack r.2.world)
  let begins (c : Config Unit) : Bool :=
    match c.world.receive 0 (.send nothing) none with
    | .answered _ _ => false
    | .entered t w => decide (t = turn) && goes w
  obtain ⟨ls, c, reached, holds⟩ := Config.exists_run
    (p := fun _ c => decide (c.turns = []) && decide (c.owned = .generator 0 ::ₘ .object nothing ::ₘ rest) &&
      decide (c.lost = 0) && decide (c.world.stack.current = some 2) &&
      decide ((c.world.resume program 0 (.send nothing) none).1 = .panicked (.body "outer")) && begins c)
    [.call (.newCompiled .generator code none 0), .call (.newCompiled .generator code none 0),
      .call (.clone (.object nothing)), .call (.clone (.object nothing)), .call (.newFrame code none),
      .call (.push 2)]
    (by decide +kernel : ((Config.start ()).playAll? _).any _ = true)
  simp only [Bool.and_eq_true, decide_eq_true_eq] at holds
  obtain ⟨⟨⟨⟨⟨turns, owned⟩, lost⟩, current⟩, outcome⟩, begun⟩ := holds
  unfold begins at begun
  split at begun
  · cases begun
  next t w received =>
  unfold goes at begun
  simp only [Option.any_eq_true, Bool.and_eq_true, decide_eq_true_eq] at begun
  obtain ⟨rfl, ⟨ms, d⟩, played, ⟨back, balanced⟩, same⟩ := begun
  have takes : c.owned = .generator 0 ::ₘ ((Injection.offered (.send nothing) none : Multiset Handle) + rest) := owned
  have under : c.under turn w (↑(Injection.send nothing).held + rest) = ⟨w, [turn], .object nothing ::ₘ rest, 0⟩ := by
    rw [Config.under, turns, lost]
    rfl
  have runs : ∀ t' w', c.world.receive 0 (.send nothing) none = .entered t' w' → ∃ ms d,
      program.Runs (fun _ _ => True) (c.under t' w' (↑(Injection.send nothing).held + rest)) 0 t' (.send nothing) ms d ∧
        w'.SameStack d.world := by
    intro t' w' entered
    cases received.symm.trans entered
    rw [under]
    exact ⟨ms, d, Host.playing_runs 0 (.send nothing) played back balanced (Multiset.zero_le _), same⟩
  obtain ⟨neutral, during⟩ := resume_stack_neutral () reached takes runs
  obtain ⟨-, onTop, -⟩ := during turn w received
  exact ⟨ls, c, program, turn, w, reached, received, onTop, current, outcome, neutral⟩

end Activation
