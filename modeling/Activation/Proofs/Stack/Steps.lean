import Activation.Proofs.Stack.Tracks

/-! # Programs and the list of the stack

What a program does to the stack is done to a list of frames.

* `StackOp`: what can be done to the stack; `StackOp.apply`: the same for a list.
* `Label.stackOp`: what a step does to the stack. A turn begins by entering its frame and ends by leaving it.
* `Step.tracks`, `Run.tracks`: the stack of a program tracks the list.
-/

namespace Activation
set_option autoImplicit false

inductive StackOp where
  | push (f : FrameId)
  | pop
  /-- Pushes a frame under a guard. -/
  | enter (f : FrameId)
  /-- Drops the guard of a frame. -/
  | leave (f : FrameId)
deriving DecidableEq

namespace StackOp

/-- A frame that stands on another one cannot be pushed, nor the one on top. -/
def pushOn (fs : List FrameId) (f : FrameId) : List FrameId :=
  if f ∈ fs.dropLast ∨ fs.head? = some f then fs else f :: fs

/-- A guard takes off whatever is on top. -/
def apply (fs : List FrameId) : StackOp → List FrameId
  | .push f => pushOn fs f
  | .pop => fs.tail
  | .enter f => pushOn fs f
  | .leave _ => fs.tail

end StackOp

def Op.stackOp : Op → Option StackOp
  | .push f => some (.push f)
  | .pop => some .pop
  | .enter f => some (.enter f)
  | .leave f => some (.leave f)
  | _ => none

def Label.stackOp : Label → Option StackOp
  | .op call => call.stackOp
  | .quiet => none
  | .answered _ _ _ _ => none
  | .entered t _ _ => some (.enter t.frame)
  | .ended t _ _ => some (.leave t.frame)
  | .strayed t _ _ => some (.leave t.frame)

variable {ε : Type}

namespace World.Tracks

variable {w v : World ε} {f : FrameId} {fs : List FrameId} {out : Multiset Handle}

theorem refuses_iff (tracks : w.Tracks fs) : w.Refuses f ↔ f ∈ fs.dropLast ∨ fs.head? = some f := by
  rw [Refuses, tracks.isLinked_iff, tracks.top]

theorem pushOn_of_refuses (tracks : w.Tracks fs) (refuses : w.Refuses f) : StackOp.pushOn fs f = fs :=
  if_pos (tracks.refuses_iff.mp refuses)

theorem pushOn_of_free (tracks : w.Tracks fs) (free : ¬ w.Refuses f) : StackOp.pushOn fs f = f :: fs :=
  if_neg fun stuck => free (tracks.refuses_iff.mpr stuck)

theorem entered (tracks : w.Tracks fs) (ok : w.enter f = .ok v) (has : w.Has (.frame f)) : v.Tracks (f :: fs) := by
  unfold enter at ok
  cases pushed : w.push f with
  | error p => rw [pushed] at ok; cases ok
  | ok u =>
    rw [pushed] at ok
    cases ok
    exact (tracks.pushed pushed has).congr ⟨rfl, fun k =>
      frame_modifyFrame Frame.prev u f k (fun x => { x with owners := x.owners + 1 }) fun _ => rfl⟩

theorem left (tracks : w.Tracks fs) {F : Footprint} (steady : Steady F (w.leave f) v) (stack : ¬ F.stack)
    (links : ∀ k, ¬ F.links k) (acc : Accounted v out) : v.Tracks fs.tail :=
  tracks.popped.kept ((steady_leave_pop w f).trans steady) stack links acc

/-- The frame of a turn comes off, however the turn ends. -/
theorem finished (tracks : w.Tracks fs) {t : Turn} {ending : Ending} (acc : Accounted (w.finish t ending).2 out) :
    (w.finish t ending).2.Tracks fs.tail := by
  have caught : Steady .turning (w.conclude t ending).2 (w.finish t ending).2 := by
    rw [finish, settlePanic_snd]
    exact steady_catchPanic _
  cases sane : ending.isPanic with
  | true =>
    cases ending with
    | panics p =>
      -- the panic is under way when the guard comes, and leaves the stack alone
      have panicking : (w.panic p).Tracks fs := tracks.congr (by rw [panic_eq]; exact ⟨rfl, fun _ => rfl⟩)
      exact panicking.left ((steady_abandon _ t.context).trans caught) id (fun _ => id) acc
    | _ => cases sane
  | false =>
    rw [w.conclude_of_calm t sane] at caught
    split at caught
    · exact tracks.left caught id (fun _ => id) acc
    · obtain ⟨hs, dropped⟩ := (w.restored t).settle_snd t.context t.closing sane
      have restored : Steady .turning (w.leave t.frame) (w.restored t) :=
        .modifyGenerator _ _ fun _ _ => ⟨rfl, rfl, .inl rfl, .inl trivial⟩
      have settled : Steady .turning (w.restored t) ((w.restored t).settle t.context t.closing ending).2 := by
        rw [dropped]
        exact (steady_stopped _ _ _).trans (Moves.drop _ hs : Moves .turning _ _ _ 0).steady
      exact tracks.left ((restored.trans settled).trans caught) id (fun _ => id) acc

end World.Tracks

/-! ## Steps -/

/-- The list of the stack after a step. -/
def Label.track (fs : List FrameId) (l : Label) : List FrameId := l.stackOp.elim fs (StackOp.apply fs)

namespace Step

variable {c d : Config ε} {l : Label} {fs : List FrameId}

/-- A turn begins on a stack where its frame can be pushed. -/
theorem entered_tracks {t : Turn} {inj : Injection} {external : Option RecordId} (sound : c.Sound)
    (step : Step c (.entered t inj external) d) (tracks : c.world.Tracks fs) :
    ¬ c.world.Refuses t.frame ∧ d.world.Tracks (t.frame :: fs) := by
  cases step with
  | @entered g inj external t w rest takes received =>
    have acc := sound.accounted
    rw [c.outside_of_request takes] at acc
    have owned := Multiset.mem_cons_self (Handle.generator g) (rest + c.reserved)
    obtain ⟨body, -, turn, entered⟩ := World.receive_entered acc owned sound.calm received
    -- up to the push the request has nothing to do with the stack
    have prepared : Moves (.request g) c.world _ _ _ := .prepare inj (.request c.world g external) acc owned
    have acc' := (prepared.accounted acc).1
    have there := acc'.has (Multiset.mem_add.mpr (.inr owned))
    have frame : t.frame = (c.world.generator g).frame := by rw [turn]
    have has := acc'.has_frame there
    rw [(prepared.steady.context id there).frame, ← frame] at has
    have tracks' := tracks.kept prepared.steady id (fun _ => id) acc'
    have free : ¬ World.Refuses _ t.frame := World.not_refuses_of_enter entered
    rw [tracks'.refuses_iff, ← tracks.refuses_iff] at free
    exact ⟨free, tracks'.entered entered has⟩

theorem op_tracks {call : Op} (sound : c.Sound) (step : Step c (.op call) d) (tracks : c.world.Tracks fs) :
    d.world.Tracks (Label.track fs (.op call)) := by
  have acc := (step.sound sound).accounted
  cases call with
  | push f =>
    cases step with
    | op _ named =>
      have has := named (.frame f) (List.mem_singleton_self _)
      change World.Tracks _ (StackOp.pushOn fs f)
      cases ok : c.world.push f with
      | error p =>
        rw [tracks.pushOn_of_refuses (World.push_eq_error_iff.mp ⟨p, ok⟩)]
        simpa only [Op.run, ok] using tracks
      | ok v =>
        rw [tracks.pushOn_of_free (World.not_refuses_of_push ok)]
        simpa only [Op.run, ok] using tracks.pushed ok has
  | enter f =>
    cases step with
    | op _ named =>
      have has := named (.frame f) (List.mem_singleton_self _)
      change World.Tracks _ (StackOp.pushOn fs f)
      cases ok : c.world.enter f with
      | error p =>
        rw [tracks.pushOn_of_refuses (World.enter_eq_error_iff.mp ⟨p, ok⟩)]
        simpa only [Op.run, ok] using tracks
      | ok v =>
        rw [tracks.pushOn_of_free (World.not_refuses_of_enter ok)]
        simpa only [Op.run, ok] using tracks.entered ok has
  | pop =>
    cases step with
    | op => exact tracks.popped
  | leave f =>
    cases step with
    | op =>
      exact tracks.left (World.steady_catchPanic _ : Steady .turning _ _) id (fun _ => id) acc
  | _ => exact tracks.kept (step.moves sound).1.steady id (fun _ => id) acc

theorem tracks (sound : c.Sound) (step : Step c l d) (tracks : c.world.Tracks fs) :
    d.world.Tracks (l.track fs) := by
  have acc := (step.sound sound).accounted
  cases l with
  | op call => exact step.op_tracks sound tracks
  | quiet => exact tracks.kept (step.moves sound).1.steady id (fun _ => id) acc
  | answered g inj external result => exact tracks.kept (step.moves sound).1.steady id (fun _ => id) acc
  | entered t inj external =>
    obtain ⟨free, tracks'⟩ := step.entered_tracks sound tracks
    rw [Label.track, Label.stackOp, Option.elim_some, StackOp.apply, tracks.pushOn_of_free free]
    exact tracks'
  | ended t ending result =>
    cases step with
    | ended => exact tracks.finished acc
  | strayed t ending result =>
    cases step with
    | strayed => exact tracks.finished acc

end Step

/-! ## Runs -/

theorem Config.start_tracks (host : ε) : (Config.start host).world.Tracks [] := .nil rfl rfl fun _ => rfl

theorem Run.tracks {c d : Config ε} {ls : List Label} {fs : List FrameId} (run : Run c ls d) (sound : c.Sound)
    (tracks : c.world.Tracks fs) : d.world.Tracks ((ls.filterMap Label.stackOp).foldl StackOp.apply fs) := by
  induction run with
  | nil => exact tracks
  | @snoc ls l d e before step ih =>
    have after := step.tracks (before.sound sound) ih
    rw [List.filterMap_append, List.foldl_append]
    unfold Label.track at after
    cases moves : l.stackOp with
    | none => simpa [moves] using after
    | some op => simpa [moves] using after

end Activation
