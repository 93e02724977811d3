import Activation.Proofs.Lifecycle.Invariant

/-! # Frames of contexts on the stack

A context at rest has its frame off the stack, so a turn can always begin.

* `World.Pointed`: a frame is on the stack, or would be if the frames above it were.
* `World.Single`: at most one link leads to a frame.
* `Label.Tidy`: a step that puts no frame of a context on the stack by hand, unless the body of the context is
  running and the frame is off the stack.
* `Still`, `Pushed`, `Popped`: what a step may do to the links.
* `Config.Stacked`: a context at rest has its frame off the stack; at most one link leads to a frame of a context.
* `Config.Stacked.unlinked`: so the frame of a context at rest can be pushed.
-/

namespace Activation
set_option autoImplicit false

variable {ε : Type}

/-! ## Links -/

namespace World

def Pointed (w : World ε) (f : FrameId) : Prop := w.stack.current = some f ∨ ∃ k, (w.frame k).prev = some f

structure Single (w : World ε) (f : FrameId) : Prop where
  top : w.stack.current = some f → ∀ k, (w.frame k).prev ≠ some f
  one : ∀ j k, (w.frame j).prev = some f → (w.frame k).prev = some f → j = k

instance decidablePointed (w : World ε) (f : FrameId) : Decidable (w.Pointed f) :=
  decidable_of_iff (w.stack.current = some f ∨ ∃ k < w.frames.next, (w.frame k).prev = some f) <| by
    refine or_congr_right ⟨fun ⟨k, _, link⟩ => ⟨k, link⟩, fun ⟨k, link⟩ => ⟨k, ?_, link⟩⟩
    cases found : w.frames.get? k with
    | none => simp [World.frame, found, Frame.absent] at link
    | some x => exact w.frames.lt_next found

theorem Single.of_not_pointed {w : World ε} {f : FrameId} (free : ¬ w.Pointed f) : w.Single f :=
  ⟨fun top => absurd (.inl top) free, fun j _ link => absurd (.inr ⟨j, link⟩) free⟩

theorem prev_eq_none {w v : World ε} {f : FrameId} (bottom : (w.frame f).prev = none)
    (links : ∀ p, (v.frame f).prev = some p → (w.frame f).prev = some p) : (v.frame f).prev = none := by
  cases link : (v.frame f).prev with
  | none => rfl
  | some p =>
    rw [links p link] at bottom
    cases bottom

end World

/-- No link appears. -/
structure Still (w v : World ε) : Prop where
  stack : v.stack.current = w.stack.current
  links : ∀ k p, (v.frame k).prev = some p → (w.frame k).prev = some p

/-- A frame goes on top of the stack. -/
structure Pushed (f : FrameId) (w v : World ε) : Prop where
  apart : w.stack.current ≠ some f
  stack : v.stack.current = some f
  link : ∀ p, (v.frame f).prev = some p → w.stack.current = some p
  links : ∀ k p, k ≠ f → (v.frame k).prev = some p → (w.frame k).prev = some p

/-- The top of the stack comes off. -/
structure Popped (f : FrameId) (w v : World ε) : Prop where
  top : w.stack.current = some f
  stack : ∀ p, v.stack.current = some p → (w.frame f).prev = some p
  link : (v.frame f).prev = none
  links : ∀ k p, k ≠ f → (v.frame k).prev = some p → (w.frame k).prev = some p

theorem Steady.prev {F : Footprint} {w v : World ε} (steady : Steady F w v) {k p : FrameId} (other : ¬ F.links k)
    (link : (v.frame k).prev = some p) : (w.frame k).prev = some p := by
  have has : v.Has (.frame k) := Option.isSome_iff_exists.mpr ⟨_, World.get?_of_prev link⟩
  rw [← steady.prev_eq other has]
  exact link

theorem Steady.still {F : Footprint} {w v : World ε} (steady : Steady F w v) (stack : ¬ F.stack)
    (links : ∀ k, ¬ F.links k) : Still w v where
  stack := by rw [steady.stack.resolve_left stack]
  links k _ := steady.prev (links k)

namespace Still

variable {w v : World ε} {f : FrameId}

theorem pointed (still : Still w v) (pointed : v.Pointed f) : w.Pointed f := by
  rcases pointed with top | ⟨k, link⟩
  · exact .inl (still.stack ▸ top)
  · exact .inr ⟨k, still.links k f link⟩

theorem trans {u : World ε} (first : Still w u) (later : Still u v) : Still w v :=
  ⟨later.stack.trans first.stack, fun f p link => first.links f p (later.links f p link)⟩

theorem single (still : Still w v) (single : w.Single f) : v.Single f where
  top here k link := single.top (still.stack ▸ here) k (still.links k f link)
  one j k first second := single.one j k (still.links j f first) (still.links k f second)

end Still

namespace Pushed

variable {w u v : World ε} {f x : FrameId}

theorem after_still (still : Still w u) (pushed : Pushed f u v) : Pushed f w v where
  apart := still.stack ▸ pushed.apart
  stack := pushed.stack
  link p linked := still.stack ▸ pushed.link p linked
  links k p other linked := still.links k p (pushed.links k p other linked)

theorem pointed (pushed : Pushed f w v) (other : x ≠ f) (pointed : v.Pointed x) : w.Pointed x := by
  rcases pointed with top | ⟨k, link⟩
  · rw [pushed.stack] at top
    exact absurd (Option.some.inj top).symm other
  · by_cases own : k = f
    · subst own
      exact .inl (pushed.link x link)
    · exact .inr ⟨k, pushed.links k x own link⟩

/-- The link from the stack to the old top becomes one from the new top. -/
theorem single (pushed : Pushed f w v) (single : w.Single x) (own : x = f → ¬ w.Pointed f) : v.Single x := by
  by_cases here : x = f
  · subst here
    have free := own rfl
    have none : ∀ k, (v.frame k).prev ≠ some x := by
      intro k link
      by_cases same : k = x
      · subst same
        exact pushed.apart (pushed.link k link)
      · exact free (.inr ⟨k, pushed.links k x same link⟩)
    exact ⟨fun _ => none, fun j _ link => absurd link (none j)⟩
  · refine ⟨fun top => ?_, fun j k first second => ?_⟩
    · rw [pushed.stack] at top
      exact absurd (Option.some.inj top).symm here
    · by_cases ownj : j = f <;> by_cases ownk : k = f
      · rw [ownj, ownk]
      · subst ownj
        exact absurd (pushed.links k x ownk second) (single.top (pushed.link x first) k)
      · subst ownk
        exact absurd (pushed.links j x ownj first) (single.top (pushed.link x second) j)
      · exact single.one j k (pushed.links j x ownj first) (pushed.links k x ownk second)

end Pushed

namespace Popped

variable {w u v : World ε} {f x : FrameId}

theorem before_still (popped : Popped f w u) (still : Still u v) : Popped f w v where
  top := popped.top
  stack p linked := popped.stack p (still.stack ▸ linked)
  link := World.prev_eq_none popped.link (still.links f)
  links k p other linked := popped.links k p other (still.links k p linked)

theorem pointed (popped : Popped f w v) (pointed : v.Pointed x) : w.Pointed x := by
  rcases pointed with top | ⟨k, link⟩
  · exact .inr ⟨f, popped.stack x top⟩
  · by_cases own : k = f
    · subst own
      rw [popped.link] at link
      cases link
    · exact .inr ⟨k, popped.links k x own link⟩

/-- The link from the old top becomes one from the stack. -/
theorem single (popped : Popped f w v) (single : w.Single x) : v.Single x := by
  have other : ∀ {k}, (v.frame k).prev = some x → k ≠ f := by
    rintro k link rfl
    rw [popped.link] at link
    cases link
  refine ⟨fun top k link => ?_, fun j k first second => ?_⟩
  · exact other link (single.one k f (popped.links k x (other link) link) (popped.stack x top))
  · exact single.one j k (popped.links j x (other first) first) (popped.links k x (other second) second)

/-- If there was one link to the frame, there is none left. -/
theorem gone (popped : Popped f w v) (single : w.Single f) : ¬ v.Pointed f := by
  rintro (top | ⟨k, link⟩)
  · exact single.top popped.top f (popped.stack f top)
  · by_cases own : k = f
    · subst own
      rw [popped.link] at link
      cases link
    · exact single.top popped.top k (popped.links k f own link)

end Popped

/-! ## Pushing and popping -/

/-- Contexts and their records may change, and panics come and go. -/
def Footprint.turning : Footprint where
  contexts _ := True
  records _ := True
  faults := True

namespace World

variable {w v : World ε}

theorem pushed_of_push {f : FrameId} (ok : w.push f = .ok v) : Pushed f w v := by
  unfold push at ok
  split at ok
  · cases ok
  split at ok
  · cases ok
  next unlinked apart =>
  cases ok
  refine ⟨apart, rfl, fun p link => ?_, fun k p other link => ?_⟩
  · cases found : w.frames.get? f with
    | none => simp [setStack, holdFrame, modifyFrame, frame, Store.get?_modify, found, Frame.absent] at link
    | some x => simpa [setStack, holdFrame, modifyFrame, frame, Store.get?_modify, found] using link
  · simpa [setStack, holdFrame, modifyFrame, frame, Store.get?_modify, Ne.symm other, other] using link

theorem pushed_of_enter {f : FrameId} (ok : w.enter f = .ok v) : Pushed f w v := by
  unfold enter at ok
  cases pushed : w.push f with
  | error p => rw [pushed] at ok; cases ok
  | ok u =>
    rw [pushed] at ok
    cases ok
    have first := pushed_of_push pushed
    have same : ∀ k, ((u.holdFrame f).frame k).prev = (u.frame k).prev := fun k =>
      frame_modifyFrame Frame.prev u f k (fun x => { x with owners := x.owners + 1 }) fun _ => rfl
    exact ⟨first.apart, first.stack, fun p link => first.link p (same f ▸ link),
      fun k p other link => first.links k p other (same k ▸ link)⟩

theorem popped_of_pop {f : FrameId} (top : w.stack.current = some f) : Popped f w w.pop.2 := by
  unfold pop
  split
  · next none => rw [top] at none; cases none
  · next k here =>
    cases top.symm.trans here
    refine ⟨top, fun p link => link, ?_, fun k p other link => ?_⟩
    · cases found : w.frames.get? f with
      | none => simp [setStack, modifyFrame, frame, Store.get?_modify, found, Frame.absent]
      | some x => simp [setStack, modifyFrame, frame, Store.get?_modify, found]
    · simpa [setStack, modifyFrame, frame, Store.get?_modify, Ne.symm other, other] using link

theorem steady_catchPanic {F : Footprint} (w : World ε) : Steady F w w.catchPanic.2 := by
  rw [catchPanic_eq]
  exact .of_eq rfl rfl rfl rfl

/-- A guard pops one frame, whichever it is. -/
theorem steady_leave_pop {F : Footprint} (w : World ε) (f : FrameId) : Steady F w.pop.2 (w.leave f) := by
  have judged : Steady F w.pop.2 (if w.pop.1 = some f then w.pop.2 else w.pop.2.panic .unbalancedPop) := by
    split
    · exact .refl _
    · exact .panic _
  rw [leave_eq]
  exact judged.trans (Moves.drop _ _ : Moves F _ _ _ 0).steady

theorem steady_stopped (w : World ε) (g : GenId) (ending : Ending) : Steady .turning w (w.stopped g ending) := by
  cases ending with
  | yields o => exact (Moves.suspend g trivial fun _ _ => trivial : Moves .turning w 0 _ 0).steady
  | returns o => exact (Moves.complete g .returned trivial fun _ _ => trivial : Moves .turning w 0 _ 0).steady
  | raises e => exact (Moves.complete g .raised trivial fun _ _ => trivial : Moves .turning w 0 _ 0).steady
  | panics p => exact .refl w

theorem steady_abandon (w : World ε) (g : GenId) : Steady .turning w (w.abandon g) :=
  (Moves.abandon g trivial trivial fun _ _ => trivial : Moves .turning w 0 _ 0).steady

theorem still_catchPanic (w : World ε) : Still w w.catchPanic.2 :=
  (steady_catchPanic w : Steady .turning _ _).still id fun _ => id

theorem still_leave (w : World ε) (f : FrameId) : Still w.pop.2 (w.leave f) :=
  (steady_leave_pop w f : Steady .turning _ _).still id fun _ => id

theorem still_stopped (w : World ε) (g : GenId) (ending : Ending) : Still w (w.stopped g ending) :=
  (steady_stopped w g ending).still id fun _ => id

theorem popped_of_finish {t : Turn} {ending : Ending} {out : Multiset Handle}
    (acc : Accounted w (.frame t.frame ::ₘ out)) (calm : w.fault = none)
    (balanced : w.stack.current = some t.frame) : Popped t.frame w (w.finish t ending).2 := by
  cases sane : ending.isPanic with
  | true =>
    cases ending with
    | panics p =>
      have left : Popped t.frame (w.panic p) ((w.panic p).leave t.frame) :=
        (popped_of_pop (by rw [panic_eq]; exact balanced)).before_still (still_leave _ _)
      have abandoned : Still ((w.panic p).leave t.frame) (((w.panic p).leave t.frame).abandon t.context) :=
        (steady_abandon _ t.context).still id fun _ => id
      have whole := (left.before_still abandoned).before_still (still_catchPanic _)
      rw [← settlePanic_snd _ (.panicked p)] at whole
      have same : ∀ k, (w.panic p).frame k = w.frame k := fun k => by
        rw [panic_eq]
        rfl
      exact ⟨balanced, fun q linked => same t.frame ▸ whole.stack q linked, whole.link,
        fun k q other linked => same k ▸ whole.links k q other linked⟩
    | _ => cases sane
  | false =>
    rw [finish_of_calm acc calm balanced sane, settlePanic_snd]
    obtain ⟨hs, dropped⟩ := (w.restored t).settle_snd t.context t.closing sane
    rw [dropped]
    have left : Popped t.frame w (w.restored t) := by
      have popped := (popped_of_pop balanced).before_still (still_leave w t.frame)
      exact ⟨popped.top, popped.stack, popped.link, popped.links⟩
    exact ((left.before_still (still_stopped _ _ _)).before_still
      ((steady_drop _ hs).still id fun _ => id)).before_still (still_catchPanic _)

end World

/-! ## Steps -/

namespace Step

variable {c d : Config ε} {l : Label} {t : Turn} {inj : Injection} {external : Option RecordId} {ending : Ending}
  {result : Resumption}

theorem still (sound : c.Sound) (step : Step c l d) (stack : ¬ (l.footprint c.world).stack)
    (links : ∀ k, ¬ (l.footprint c.world).links k) : Still c.world d.world :=
  (step.moves sound).1.steady.still stack links

theorem pushed (sound : c.Sound) (step : Step c (.entered t inj external) d) :
    Pushed t.frame c.world d.world := by
  cases step with
  | @entered g inj external t w rest takes received =>
    have acc := sound.accounted
    rw [c.outside_of_request takes] at acc
    obtain ⟨body, -, -, entered⟩ := World.receive_entered acc (Multiset.mem_cons_self _ _) sound.calm received
    have prepared : Moves (.request g) c.world _ _ _ :=
      .prepare inj (.request c.world g external) acc (Multiset.mem_cons_self _ _)
    exact (World.pushed_of_enter entered).after_still (prepared.steady.still id fun _ => id)

theorem popped (sound : c.Sound) (step : Step c (.ended t ending result) d) :
    Popped t.frame c.world d.world := by
  cases step with
  | ended innermost balanced takes =>
    have acc := sound.accounted
    rw [c.outside_of_turn innermost takes] at acc
    exact World.popped_of_finish acc sound.calm balanced

end Step

/-! ## Tidy programs -/

/-- A frame that may go on the stack by hand. -/
def Config.Pushable (c : Config ε) (f : FrameId) : Prop :=
  ∀ g, c.world.Has (.generator g) → (c.world.generator g).frame = f →
    (∃ t ∈ c.turns, t.context = g) ∧ ¬ c.world.Pointed f

def Op.Tidy (c : Config ε) : Op → Prop
  | .push f => c.Pushable f
  | .enter f => c.Pushable f
  | _ => True

def Label.Tidy (c : Config ε) : Label → Prop
  | .op call => call.Tidy c
  | _ => True

instance Config.decidablePushable (c : Config ε) (f : FrameId) : Decidable (c.Pushable f) :=
  decidable_of_iff (∀ g < c.world.generators.next, c.world.Has (.generator g) → (c.world.generator g).frame = f →
    (∃ t ∈ c.turns, t.context = g) ∧ ¬ c.world.Pointed f)
    ⟨fun all g has => all g (World.lt_next_of_has has) has, fun all g _ => all g⟩

instance Op.decidableTidy (c : Config ε) (op : Op) : Decidable (op.Tidy c) := by
  unfold Op.Tidy
  split <;> infer_instance

instance Label.decidableTidy (c : Config ε) : (l : Label) → Decidable (l.Tidy c)
  | .op call => inferInstanceAs (Decidable (call.Tidy c))
  | .quiet | .answered _ _ _ _ | .entered _ _ _ | .ended _ _ _ | .strayed _ _ _ => .isTrue trivial

/-- What holds of the frame of a context. -/
structure Config.Placed (c : Config ε) (g : GenId) (f : FrameId) : Prop where
  single : c.world.Single f
  idle : (¬ ∃ t ∈ c.turns, t.context = g) → ¬ c.world.Pointed f ∧ (c.world.frame f).prev = none

namespace Config.Placed

variable {c d : Config ε} {g : GenId} {f k : FrameId}

theorem still (placed : c.Placed g f) (still : Still c.world d.world) (turns : d.turns = c.turns) :
    d.Placed g f where
  single := still.single placed.single
  idle away := by
    rw [turns] at away
    obtain ⟨free, bottom⟩ := placed.idle away
    exact ⟨fun pointed => free (still.pointed pointed), World.prev_eq_none bottom (still.links f)⟩

theorem pushed (placed : c.Placed g f) (pushed : Pushed k c.world d.world)
    (own : f = k → ¬ c.world.Pointed k ∧ ∃ t ∈ d.turns, t.context = g)
    (turns : (∃ t ∈ c.turns, t.context = g) → ∃ t ∈ d.turns, t.context = g) : d.Placed g f where
  single := pushed.single placed.single fun here => (own here).1
  idle away := by
    have other : f ≠ k := fun here => away (own here).2
    obtain ⟨free, bottom⟩ := placed.idle fun before => away (turns before)
    exact ⟨fun pointed => free (pushed.pointed other pointed),
      World.prev_eq_none bottom fun p => pushed.links f p other⟩

theorem popped (placed : c.Placed g f) (popped : Popped k c.world d.world)
    (turns : (¬ ∃ t ∈ d.turns, t.context = g) → f = k ∨ ¬ ∃ t ∈ c.turns, t.context = g) : d.Placed g f where
  single := popped.single placed.single
  idle away := by
    by_cases own : f = k
    · subst own
      exact ⟨popped.gone placed.single, popped.link⟩
    · obtain ⟨free, bottom⟩ := placed.idle ((turns away).resolve_left own)
      exact ⟨fun pointed => free (popped.pointed pointed),
        World.prev_eq_none bottom fun p => popped.links f p own⟩

theorem of_new {out : Multiset Handle} (acc : Accounted c.world out) (still : Still c.world d.world) (g : GenId) :
    d.Placed g c.world.frames.next := by
  have missing : ¬ c.world.Has (.frame c.world.frames.next) := fun has => by
    obtain ⟨x, found⟩ := Option.isSome_iff_exists.mp has
    exact Nat.lt_irrefl _ (c.world.frames.lt_next found)
  -- a link is a handle, and there is none on a frame that is not there
  have free : ¬ d.world.Pointed c.world.frames.next := fun pointed => by
    rcases still.pointed pointed with top | ⟨k, link⟩
    · exact missing (acc.has_of_stack top)
    · exact missing (acc.has_prev link)
  have bottom : (c.world.frame c.world.frames.next).prev = none := by
    cases there : c.world.frames.get? c.world.frames.next with
    | none => simp [World.frame, there, Frame.absent]
    | some x => exact absurd (Option.isSome_iff_exists.mpr ⟨x, there⟩) missing
  exact ⟨.of_not_pointed free, fun _ => ⟨free, World.prev_eq_none bottom (still.links _)⟩⟩

end Config.Placed

structure Config.Stacked (c : Config ε) : Prop where
  placed : ∀ g, c.world.Has (.generator g) → c.Placed g (c.world.generator g).frame
  frame : ∀ t ∈ c.turns, t.frame = (c.world.generator t.context).frame

/-- The frame of a context at rest can be pushed. -/
theorem Config.Stacked.unlinked {c : Config ε} {g : GenId} (stacked : c.Stacked) (has : c.world.Has (.generator g))
    (rest : ¬ ∃ t ∈ c.turns, t.context = g) :
    ¬ ((c.world.frame (c.world.generator g).frame).isLinked = true ∨
      c.world.stack.current = some (c.world.generator g).frame) := by
  obtain ⟨free, bottom⟩ := (stacked.placed g has).idle rest
  rintro (linked | top)
  · rw [Frame.isLinked, bottom] at linked
    cases linked
  · exact free (.inl top)

namespace Step

variable {c d : Config ε} {l : Label} {g : GenId} {f : FrameId}

theorem op_placed {call : Op} (sound : c.Sound) (step : Step c (.op call) d) (tidy : call.Tidy c)
    (has : c.world.Has (.generator g)) (placed : c.Placed g (c.world.generator g).frame) :
    d.Placed g (c.world.generator g).frame := by
  have turns : d.turns = c.turns := step.turns_eq
  have pushed : ∀ k, Pushed k c.world d.world →
      ((c.world.generator g).frame = k → (∃ t ∈ c.turns, t.context = g) ∧ ¬ c.world.Pointed k) →
      d.Placed g (c.world.generator g).frame := fun k pushed own =>
    placed.pushed pushed (fun here => ⟨(own here).2, turns ▸ (own here).1⟩) fun turn => turns ▸ turn
  have popped : ∀ k, Popped k c.world d.world → d.Placed g (c.world.generator g).frame := fun k popped =>
    placed.popped popped fun away => .inr (turns ▸ away)
  have unchanged : d.world.stack = c.world.stack → d.world.frames = c.world.frames →
      d.Placed g (c.world.generator g).frame := fun stack frames =>
    placed.still ⟨by rw [stack], fun k p link => by simpa only [World.frame, frames] using link⟩ turns
  cases call with
  | push f =>
    cases step with
    | op named fits takes =>
      cases ok : c.world.push f with
      | error p => exact unchanged (by simp [Op.run, ok]) (by simp [Op.run, ok])
      | ok v => exact pushed f (by simpa [Op.run, ok] using World.pushed_of_push ok) (tidy g has)
  | enter f =>
    cases step with
    | op named fits takes =>
      cases ok : c.world.enter f with
      | error p => exact unchanged (by simp [Op.run, ok]) (by simp [Op.run, ok])
      | ok v => exact pushed f (by simpa [Op.run, ok] using World.pushed_of_enter ok) (tidy g has)
  | pop =>
    cases step with
    | op named fits takes =>
      cases top : c.world.stack.current with
      | none => exact unchanged (by simp [Op.run, World.pop, top]) (by simp [Op.run, World.pop, top])
      | some k => exact popped k (World.popped_of_pop top)
  | leave f =>
    cases step with
    | op named fits takes =>
      cases top : c.world.stack.current with
      | none =>
        have same : c.world.pop.2 = c.world := by simp [World.pop, top]
        have left := (World.still_leave c.world f).trans (World.still_catchPanic _)
        rw [same] at left
        exact placed.still left turns
      | some k =>
        exact popped k (((World.popped_of_pop top).before_still (World.still_leave _ f)).before_still
          (World.still_catchPanic _))
  | _ => exact placed.still (step.still sound id fun _ => id) turns

theorem placed {ls : List Label} (lively : c.Lively ls) (stacked : c.Stacked) (step : Step c l d)
    (lawful : l.Lawful c) (tidy : l.Tidy c) (has : c.world.Has (.generator g)) :
    d.Placed g (c.world.generator g).frame := by
  have placed := stacked.placed g has
  cases l with
  | op call => exact step.op_placed lively.sound tidy has placed
  | quiet =>
    have turns : d.turns = c.turns := step.turns_eq
    exact placed.still (step.still lively.sound id fun _ => id) turns
  | answered k inj external result =>
    have turns : d.turns = c.turns := step.turns_eq
    exact placed.still (step.still lively.sound id fun _ => id) turns
  | entered t inj external =>
    obtain ⟨body, -, turn, turns, -⟩ := step.entered_status lively.sound
    have frame : t.frame = (c.world.generator t.context).frame := by rw [turn]
    have there := (step.has_entered lively.sound).1
    refine placed.pushed (step.pushed lively.sound) (fun here => ?_) fun ⟨u, member, own⟩ =>
      ⟨u, turns ▸ List.mem_cons_of_mem t member, own⟩
    have own : g = t.context := lively.priv.apart has there (here.trans frame)
    subst own
    have rest := (lively.stage _ there).rest (step.entered_inStage lively.sound lively.priv (lively.stage _ there)).2
    exact ⟨here ▸ (placed.idle rest).1, t, turns ▸ List.mem_cons_self .., rfl⟩
  | ended t ending result =>
    obtain ⟨turns, -, -, -⟩ := step.ended_status lively.sound
    refine placed.popped (step.popped lively.sound) fun away => ?_
    by_cases own : t.context = g
    · subst own
      exact .inl (stacked.frame t (turns ▸ List.mem_cons_self ..)).symm
    · refine .inr fun ⟨u, member, here⟩ => ?_
      rw [turns] at member
      rcases List.mem_cons.mp member with rfl | member
      · exact own here
      · exact away ⟨u, member, here⟩
  | strayed t ending result => exact lawful.elim

theorem stacked {ls : List Label} (lively : c.Lively ls) (stacked : c.Stacked) (step : Step c l d)
    (lawful : l.Lawful c) (tidy : l.Tidy c) : d.Stacked where
  placed g after := by
    by_cases late : c.world.generators.next ≤ g
    · have frame : (d.world.generator g).frame = c.world.frames.next ∧ Still c.world d.world := by
        rcases step.newborn lively.sound late after with ⟨_, _, _, _, rfl, made⟩ | ⟨_, _, _, rfl, made⟩
        · exact ⟨by rw [made], step.still lively.sound id fun _ => id⟩
        · exact ⟨by rw [made], step.still lively.sound id fun _ => id⟩
      rw [frame.1]
      exact .of_new lively.sound.accounted frame.2 g
    · obtain ⟨before, -, same⟩ := step.keeps_context lively.sound (Nat.not_le.mp late) after
      rw [same]
      exact step.placed lively stacked lawful tidy before
  frame t turning := by
    have kept : ∀ {u}, u ∈ c.turns → u ∈ d.turns → u.frame = (d.world.generator u.context).frame := by
      intro u earlier now
      have has := lively.sound.has_turn earlier
      obtain ⟨-, -, same⟩ := step.keeps_context lively.sound (World.lt_next_of_has has)
        ((step.sound lively.sound).has_turn now)
      rw [same]
      exact stacked.frame u earlier
    cases l with
    | entered u inj external =>
      obtain ⟨body, -, turn, turns, -⟩ := step.entered_status lively.sound
      rw [turns] at turning
      rcases List.mem_cons.mp turning with rfl | old
      · obtain ⟨before, after⟩ := step.has_entered lively.sound
        obtain ⟨-, -, same⟩ := step.keeps_context lively.sound (World.lt_next_of_has before) after
        rw [same, turn]
      · exact kept old (turns ▸ turning)
    | ended u ending result =>
      obtain ⟨turns, -, -, -⟩ := step.ended_status lively.sound
      exact kept (turns ▸ List.mem_cons_of_mem u turning) turning
    | strayed u ending result => exact lawful.elim
    | op call =>
      have turns : d.turns = c.turns := step.turns_eq
      exact kept (turns ▸ turning) turning
    | quiet =>
      have turns : d.turns = c.turns := step.turns_eq
      exact kept (turns ▸ turning) turning
    | answered k inj external result =>
      have turns : d.turns = c.turns := step.turns_eq
      exact kept (turns ▸ turning) turning

end Step

theorem Config.start_stacked (host : ε) : (Config.start host).Stacked where
  placed := nofun
  frame := nofun

end Activation
