import Activation.Proofs.Handles.Requests

/-! # Calls of the library

Every call is a sequence of moves within its own footprint, and every step of a program is one, too.

* `Op.footprint`, `Label.footprint`: what a call or a step may change.
* `Config.Sound`: all handles are accounted for, nothing is panicking, and the object without a value is there.
* `Step.moves`: a step of a sound program keeps to its footprint, and leaves the program sound.
* `Run.sound`: every run leaves the program sound.
* `Course.kept`, `Kept.course`: the courses of mild calls are the runs.
-/

namespace Activation
set_option autoImplicit false

variable {ε : Type}

/-! ## Walks -/

namespace World

/-- A search that has found a record has ended in time. -/
theorem traverse_seek (w : World ε) (name : String) (n visited skip : Nat) (cursor : Option FrameId)
    {r : RecordId} (found : (w.traverse (w.seek name) n visited cursor (skip, none)).2.2 = some r) :
    ∃ k, (w.traverse (w.seek name) n visited cursor (skip, none)).1 = .ok k := by
  -- the search ends early exactly when it finds a record, so it has not run out of steps
  induction n generalizing visited skip cursor with
  | zero =>
    cases cursor with
    | none => simp [traverse] at found
    | some f => simp [traverse] at found
  | succ n ih =>
    cases cursor with
    | none => simp [traverse] at found
    | some f =>
      by_cases skipping : 0 < skip
      · simp only [traverse, seek, skipping, if_true] at found ⊢
        exact ih _ _ _ found
      · cases named : w.recordNamed name f with
        | some s =>
          simp only [traverse, seek, skipping, if_false, named]
          exact ⟨_, rfl⟩
        | none =>
          simp only [traverse, seek, skipping, if_false, named] at found ⊢
          exact ih _ _ _ found

/-- A search hands out the first slot of a record, or nothing. -/
theorem findFirstArg_cases (w : World ε) (name : String) (skip : Nat) :
    (∃ r k, w.findFirstArg name skip = (.ok (w.slot r 0).1, (w.slot r 0).2.reportWalk (.ok k))) ∨
    (∃ k, (w.findFirstArg name skip).1.toOption.join = none ∧
      (w.findFirstArg name skip).2 = w.reportWalk k) := by
  simp only [findFirstArg]
  split
  · next r found =>
    obtain ⟨k, ended⟩ := w.traverse_seek name w.maxDepth 0 skip w.stack.current found
    refine .inl ⟨r, k, ?_⟩
    simp only [walkFrom] at ended ⊢
    rw [ended]
    rfl
  · refine .inr ⟨_, ?_, rfl⟩
    cases (w.walkFrom w.stack.current (w.seek name) (skip, none)).1 <;> simp [Except.map, Except.toOption]

end World

/-! ## Calls -/

/-- What a call may change besides who holds what. -/
def Op.footprint (w : World ε) : Op → Footprint
  | .clone h => { retained := fun o => h = .object o }
  | .markImmortal o => { retained := fun p => p = o }
  | .slot r i => { retained := fun o => (w.record r).slot i = some o }
  | .findFirstArg name skip => { retained := fun o => (w.findFirstArg name skip).1.toOption.join = some o }
  | .clear r => { records := fun s => s = r }
  | .setState r _ => { records := fun s => s = r }
  | .setLastInstr r _ => { records := fun s => s = r }
  | .setIp f ip =>
    { records := fun r => (w.frame f).record = some r ∧ ¬ (ip = -1 ↔ (w.record r).lastInstr = -1) }
  | .newInterpretedFrame r => { attached := fun s => s = r }
  | .materialize _ _ => { attached := fun s => s = w.records.next }
  | .bindRecord _ r => { attached := fun s => s = r }
  | .push f => { links := fun k => k = f, stack := True }
  | .enter f => { links := fun k => k = f, stack := True }
  | .pop => { links := fun k => w.stack.current = some k, stack := True }
  | .leave _ => { links := fun k => w.stack.current = some k, stack := True, faults := True }
  | .newCompiled _ _ _ _ => { births := True }
  | .newInterpreted _ r _ => { births := True, attached := fun s => s = r }
  | _ => {}

namespace Moves

variable {w : World ε} {rest : Multiset Handle}

theorem has_of_slot (acc : Accounted w rest) {r : RecordId} {i : Nat} {o : ObjId}
    (bound : (w.record r).slot i = some o) : w.Has (.object o) := by
  cases found : w.records.get? r with
  | none => simp [World.record, found, Record.absent, Record.slot] at bound
  | some x =>
    rw [World.record_of_get? found] at bound
    refine acc.has_of_record found (List.mem_map_of_mem (List.mem_filterMap.mpr ⟨some o, ?_, rfl⟩))
    rw [Record.slot, Option.join_eq_some_iff] at bound
    exact List.mem_of_getElem? bound

theorem findFirstArg {F : Footprint} (acc : Accounted w rest) (name : String) (skip : Nat)
    (hF : ∀ o, (w.findFirstArg name skip).1.toOption.join = some o → F.retained o) :
    Moves F w rest (w.findFirstArg name skip).2
      (↑((w.findFirstArg name skip).1.toOption.join.toList.map Handle.object) + rest) := by
  rcases w.findFirstArg_cases name skip with ⟨r, k, eq⟩ | ⟨k, nothing, eq⟩
  · rw [eq] at hF ⊢
    have read : Moves F w rest (w.slot r 0).2 (↑((w.slot r 0).1.toList.map Handle.object) + rest) :=
      slot r 0 fun o bound => ⟨has_of_slot acc bound, hF o (by simp [World.slot, bound, Except.toOption])⟩
    exact (read.trans (reportWalk (.ok k))).cast rfl rfl
  · rw [eq, nothing]
    exact (reportWalk k).cast rfl (by simp)

theorem op {op : Op} (named : ∀ h ∈ op.names, w.Has h) (fits : op.Fits w) (mild : op.Mild)
    (acc : Accounted w (↑op.takes + rest)) :
    Moves (op.footprint w) w (↑op.takes + rest) (op.run w).2 (↑(op.run w).1 + rest) := by
  have one : ∀ h : Handle, (↑[h] + rest : Multiset Handle) = h ::ₘ rest := fun h => by simp
  have none : (↑([] : List Handle) + rest : Multiset Handle) = rest := by simp
  cases op with
  | newObject type payload => exact (newObject type payload mild).cast rfl (one _).symm
  | newImmortal type payload => exact (newImmortal type payload).cast rfl (one _).symm
  | clone h => exact (hold (named h (by simp [Op.names])) fun _ eq => eq).cast none (one _).symm
  | drop h => exact (dropOne w h).cast (one _) none.symm
  | markImmortal o => exact (Moves.one (.markImmortal o rfl)).cast none none.symm
  | setCount o count => exact mild.elim
  | newRecord x => exact (Moves.one (.addRecord fits)).cast rfl (one _).symm
  | setSlot r i o => exact (setSlot r i o (named _ (by simp [Op.names]))).cast (one _) none.symm
  | slot r i =>
    exact (slot r i fun _ bound => ⟨has_of_slot acc bound, bound⟩).cast none rfl
  | clear r => exact (clear r rfl).cast none none.symm
  | setState r s => exact (setState r s rfl).cast none none.symm
  | setLastInstr r ip => exact (setLastInstr r ip (.inl rfl)).cast none none.symm
  | newFrame code builder =>
    refine (Moves.one (.addFrame (x := .compiled code builder) rfl ?_ rfl)).cast ?_ (one _).symm
    · intro r attached; cases attached
    · simp [Op.takes, Frame.held, Frame.heldRecord, Frame.heldBelow, Frame.compiled]
  | newInterpretedFrame r => exact (addInterpretedFrame rfl).cast (one _) (one _).symm
  | setIp f ip =>
    refine (setIp f ip fun r attached => ?_).cast none none.symm
    by_cases same : ip = -1 ↔ (w.record r).lastInstr = -1
    · exact .inr same
    · exact .inl ⟨attached, same⟩
  | setFrameAwaiter f a => exact (setFrameAwaiter f a).cast none none.symm
  | materialize f x => exact (materialize (named _ (by simp [Op.names])) fits rfl).cast rfl none.symm
  | bindRecord f r => exact (bindRecord (named _ (by simp [Op.names])) rfl).cast (one _) none.symm
  | push f =>
    simp only [Op.run]
    cases pushed : w.push f with
    | error p => exact .refl
    | ok v => exact (push (named _ (by simp [Op.names])) rfl trivial pushed).cast none none.symm
  | pop => exact (pop (fun _ top => top) trivial).cast none rfl
  | enter f =>
    simp only [Op.run]
    cases entered : w.enter f with
    | error p => exact .refl
    | ok v => exact (enter (named _ (by simp [Op.names])) rfl trivial entered).cast none (one _).symm
  | leave f =>
    exact ((leave f (fun _ top => top) trivial (.inl trivial)).trans (catchPanic trivial)).cast (one _) none.symm
  | newCompiled kind code builder body =>
    exact (addCompiled kind code builder body trivial).cast none (one _).symm
  | newInterpreted kind r body =>
    have has : w.Has (.record r) := acc.has (by simp [Op.takes])
    exact (addInterpreted kind body has rfl trivial).cast (one _) (one _).symm
  | wrap g => exact (wrap g).cast (one _) (one _).symm
  | setAwaiter g a => exact (setAwaiter g a).cast none none.symm
  | findFirstArg name skip =>
    have acc : Accounted w rest := by rw [← none]; exact acc
    exact (findFirstArg acc name skip fun _ found => found).cast none rfl

end Moves

theorem Op.fault_run {w : World ε} {op : Op} {rest : Multiset Handle} (named : ∀ h ∈ op.names, w.Has h)
    (fits : op.Fits w) (mild : op.Mild) (acc : Accounted w (↑op.takes + rest)) (calm : w.fault = none) :
    (op.run w).2.fault = none := by
  have moves := Moves.op named fits mild acc
  cases op with
  | leave f =>
    have acc' : Accounted w (.frame f ::ₘ rest) := by simpa [Op.takes] using acc
    show (w.leave f).catchPanic.2.fault = none
    by_cases balanced : w.stack.current = some f
    · rw [World.catchPanic_of_none ((acc'.fault_leave balanced).trans calm)]
      exact (acc'.fault_leave balanced).trans calm
    · rw [World.catchPanic_of_unwinding (acc'.fault_leave_strayed calm balanced)]
  | _ => exact (moves.fault_eq acc id).trans calm

/-! ## Steps -/

/-- What a request may change up to the begin of a turn. -/
def Footprint.asking (w : World ε) (g : GenId) (external : Option RecordId) : Footprint where
  contexts k := k = g
  records r := (w.generator g).live = some r ∨ (w.frame (w.generator g).frame).record = some r ∨
    external = some r
  attached r := external = some r

theorem Footprint.Admits.asking {F : Footprint} (w : World ε) (g : GenId) (external : Option RecordId)
    (contexts : F.contexts = (Footprint.asking w g external).contexts)
    (records : F.records = (Footprint.asking w g external).records)
    (attached : F.attached = (Footprint.asking w g external).attached) : F.Admits w g external where
  context := by rw [contexts]; rfl
  live r bound := by rw [records]; exact .inl bound
  frame r bound := by rw [records]; exact .inr (.inl bound)
  external r bound := by rw [records, attached]; exact ⟨.inr (.inr bound), bound⟩

/-- What a step may change besides who holds what. -/
def Label.footprint (w : World ε) : Label → Footprint
  | .op call => call.footprint w
  | .quiet => {}
  | .answered g _ external _ => { Footprint.asking w g external with faults := True }
  | .entered t _ external =>
    { Footprint.asking w t.context external with links := fun f => f = t.frame, stack := True }
  | .ended t _ _ =>
    { contexts := fun k => k = t.context
      records := fun r => (w.generator t.context).live = some r
      links := fun f => f = t.frame
      stack := True
      faults := True }
  | .strayed _ _ _ => { links := fun f => w.stack.current = some f, stack := True, faults := True }

/-- A program in order. -/
structure Config.Sound (c : Config ε) : Prop where
  accounted : Accounted c.world c.outside
  calm : c.world.fault = none
  nothing : c.world.Immortal nothing

namespace Config

/-- What a request takes, and the handles that stay where they are. -/
theorem outside_of_request (c : Config ε) {g : GenId} {inj : Injection} {external : Option RecordId}
    {rest : Multiset Handle}
    (takes : c.owned = .generator g ::ₘ ((inj.offered external : Multiset Handle) + rest)) :
    c.outside = ↑(inj.offered external) + (.generator g ::ₘ (rest + c.reserved)) := by
  rw [outside, takes]
  simp only [← Multiset.singleton_add]
  abel

theorem outside_of_turn (c : Config ε) {t : Turn} {turns : List Turn} {ending : Ending}
    {rest : Multiset Handle} (innermost : c.turns = t :: turns) (takes : c.owned = ↑ending.held + rest) :
    c.outside = .frame t.frame ::ₘ ((ending.held : Multiset Handle) +
      (.generator t.context ::ₘ (rest + reserved { c with turns := turns }))) := by
  rw [outside, takes, reserved, innermost]
  simp only [reserved, List.flatMap_cons, Turn.held, List.cons_append, List.nil_append,
    ← Multiset.cons_coe, ← Multiset.singleton_add]
  abel

end Config

namespace Step

variable {c d : Config ε} {l : Label}

theorem moves (sound : c.Sound) (step : Step c l d) :
    Moves (l.footprint c.world) c.world c.outside d.world d.outside ∧ d.world.fault = none := by
  obtain ⟨acc, calm, lasting⟩ := sound
  cases step with
  | @op op rest named fits takes mild =>
    have split : c.outside = ↑op.takes + (rest + c.reserved) := by
      rw [Config.outside, takes, add_assoc]
    rw [split] at acc ⊢
    refine ⟨(Moves.op named fits mild acc).cast rfl ?_, Op.fault_run named fits mild acc calm⟩
    exact (add_assoc _ _ _).symm
  | quiet same => exact ⟨.quiet same, same.fault.trans calm⟩
  | @answered g inj external result w rest takes received =>
    rw [c.outside_of_request takes] at acc ⊢
    obtain ⟨moves, calm'⟩ := Moves.answered
      (F := (Label.answered g inj external (World.settlePanic result w).1).footprint c.world)
      (.asking _ _ _ rfl rfl rfl) trivial lasting acc (Multiset.mem_cons_self _ _) calm received
    refine ⟨moves.cast rfl ?_, calm'⟩
    simp only [Config.outside, Config.reserved, ← Multiset.singleton_add]
    abel
  | @entered g inj external t w rest takes received =>
    rw [c.outside_of_request takes] at acc ⊢
    have owned : .generator g ∈ (.generator g ::ₘ (rest + c.reserved)) :=
      Multiset.mem_cons_self _ _
    obtain ⟨body, -, turn, -⟩ := World.receive_entered acc owned calm received
    have context : t.context = g := by rw [turn]
    have frame : t.frame = (c.world.generator t.context).frame := by rw [turn]
    subst context
    have moves := Moves.entered (F := (Label.entered t inj external).footprint c.world)
      (.asking _ _ _ rfl rfl rfl) frame.symm trivial acc owned calm received
    refine ⟨moves.cast rfl ?_, (moves.fault_eq acc id).trans calm⟩
    simp only [Config.outside, Config.reserved, List.flatMap_cons, Turn.held, List.cons_append, List.nil_append,
      ← Multiset.cons_coe, ← Multiset.singleton_add]
    abel
  | @ended t turns ending rest innermost balanced takes =>
    rw [c.outside_of_turn innermost takes] at acc ⊢
    obtain ⟨moves, calm'⟩ := Moves.ended
      (F := (Label.ended t ending (c.world.finish t ending).1).footprint c.world)
      rfl (fun _ top => top) rfl trivial trivial lasting acc calm balanced
    refine ⟨moves.cast rfl ?_, calm'⟩
    simp only [Config.outside, Config.reserved, ← Multiset.singleton_add]
    abel
  | @strayed t turns ending rest innermost unbalanced sane takes =>
    have split : c.outside = .frame t.frame ::ₘ
        (.generator t.context ::ₘ rest +
          Config.reserved { c with turns := turns, lost := ↑ending.held + c.lost }) := by
      rw [Config.outside, takes, Config.reserved, innermost]
      simp only [Config.reserved, List.flatMap_cons, Turn.held, List.cons_append, List.nil_append,
        ← Multiset.cons_coe, ← Multiset.singleton_add]
      abel
    rw [split] at acc ⊢
    exact Moves.strayed (F := (Label.strayed t ending (c.world.finish t ending).1).footprint c.world)
      sane (fun _ top => top) trivial trivial acc calm unbalanced

theorem sound (sound : c.Sound) (step : Step c l d) : d.Sound := by
  obtain ⟨moves, calm⟩ := step.moves sound
  exact ⟨(moves.accounted sound.accounted).1, calm, moves.immortal sound.nothing⟩

end Step

/-! ## Runs -/

theorem Config.start_sound (host : ε) : (Config.start host).Sound where
  accounted h := by
    have none : (Config.start host).world.inside h = 0 := by
      simp [World.inside, Config.start, Stack.held, Object.held, Object.nothing]
    have out : (Config.start host).outside = 0 := by simp [Config.outside, Config.reserved, Config.start]
    rw [none, out, tally_zero]
    cases h with
    | object o =>
      exact (Store.Counted.empty Object.Owned o).insert (fun _ _ => .inl (by decide)) fun _ => rfl
    | record r => exact Store.Counted.empty (OwnedBy Record.owners) r
    | frame f => exact Store.Counted.empty (OwnedBy Frame.owners) f
    | below f => trivial
    | generator g => exact Store.Counted.empty (OwnedBy Generator.owners) g
  calm := rfl
  nothing := ⟨.nothing, rfl, by decide⟩

theorem Run.sound {c d : Config ε} {ls : List Label} (sound : c.Sound) (run : Run c ls d) : d.Sound := by
  induction run with
  | nil => exact sound
  | snoc _ step ih => exact step.sound ih

/-! ## Courses of mild calls -/

section

variable {rule : Config ε → Label → Prop} {c d : Config ε} {l : Label} {ls : List Label}

theorem Act.step_of_mild (sound : c.Sound) (act : Act c l d) (mild : l.Mild) : Step c l d := by
  cases act with
  | step step => exact step
  | call op named fits takes =>
    have step := Step.op op named fits takes mild
    rwa [World.catchPanic_of_none (step.sound sound).calm]

theorem Course.kept (sound : c.Sound) (course : Course rule c ls d) (mild : ∀ l ∈ ls, l.Mild) :
    Kept rule c ls d := by
  induction course with
  | nil => exact .nil
  | @snoc ls l _ _ _ act kept _ ih =>
    have before := ih fun m earlier => mild m (List.mem_append_left _ earlier)
    have last : l.Mild := mild l (List.mem_append_right _ (List.mem_singleton_self l))
    exact .snoc before (act.step_of_mild (before.run.sound sound) last) kept

theorem Kept.course (sound : c.Sound) (kept : Kept rule c ls d) : Course rule c ls d ∧ ∀ l ∈ ls, l.Mild := by
  induction kept with
  | nil => exact ⟨.nil, fun l none => absurd none List.not_mem_nil⟩
  | snoc init step kept ih =>
    obtain ⟨course, mild⟩ := ih
    refine ⟨.snoc course (.step step) kept (step.sound (init.run.sound sound)).calm, fun m member => ?_⟩
    rcases List.mem_append.mp member with earlier | last
    · exact mild m earlier
    · rw [List.mem_singleton.mp last]
      exact step.mild

end

end Activation
