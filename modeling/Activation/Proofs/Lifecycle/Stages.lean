import Activation.Proofs.Lifecycle.Turns

/-! # The stages of a context

What has happened to a context so far says at which stage it is, and the stage says what everybody can see of
it, whichever way the context is backed.

* `Incident`, `history`: what happens to a context, and all of that in a run.
* `Stage`, `stageOf`: where a context is, after its history.
* `World.Shows w g n p`: the context `g` is at the stage `p` and has yielded `n` times, as far as its own state or
  the state of its record tell.
* `World.Shows.isCompleted` and the others: what everybody can see of a stage.
-/

namespace Activation
set_option autoImplicit false

variable {ε : Type}

/-! ## Histories -/

inductive Incident where
  /-- The body takes over, with a value or with an exception. -/
  | begun (throwing : Bool)
  | yielded
  | finished
deriving DecidableEq

def Resumption.isRefusal : Resumption → Bool
  | .refused _ => true
  | _ => false

/-- What a step does to a context. A request that is neither refused nor handed to the body leaves the context
finished. -/
def Label.incident (g : GenId) : Label → Option Incident
  | .answered k _ _ result => if k = g ∧ result.isRefusal = false then some .finished else none
  | .entered t inj _ => if t.context = g then some (.begun inj.isThrowing) else none
  | .ended t ending _ =>
    if t.context = g then some (if ending.isYield then .yielded else .finished) else none
  | _ => none

def history (g : GenId) (ls : List Label) : List Incident := ls.filterMap (Label.incident g)

inductive Stage where
  /-- The body has not been entered. -/
  | fresh
  | stepping (throwing : Bool)
  /-- The body waits at a yield. -/
  | suspended
  | finished
deriving DecidableEq

def Incident.stage : Incident → Stage
  | .begun throwing => .stepping throwing
  | .yielded => .suspended
  | .finished => .finished

/-- The last incident decides. -/
def stageOf (past : List Incident) : Stage := (past.getLast?.map Incident.stage).getD .fresh

def yieldsOf (past : List Incident) : Nat := past.count .yielded

theorem stageOf_concat (past : List Incident) (i : Incident) : stageOf (past ++ [i]) = i.stage := by
  simp [stageOf]

theorem stageOf_suspended {past : List Incident} : stageOf past = .suspended ↔ past.getLast? = some .yielded := by
  unfold stageOf
  cases past.getLast? with
  | none => simp
  | some i => cases i <;> simp [Incident.stage]

theorem yieldsOf_concat (past : List Incident) (i : Incident) :
    yieldsOf (past ++ [i]) = yieldsOf past + if i = .yielded then 1 else 0 := by
  rw [yieldsOf, List.count_append, List.count_singleton]
  simp [yieldsOf]

theorem yieldsOf_pos {past : List Incident} (suspended : stageOf past = .suspended) : 0 < yieldsOf past := by
  rcases List.eq_nil_or_concat past with rfl | ⟨init, i, rfl⟩
  · cases suspended
  · rw [List.concat_eq_append, stageOf_concat] at suspended
    rw [List.concat_eq_append, yieldsOf_concat]
    cases i with
    | yielded => simp
    | _ => cases suspended

theorem begun_of_stepping {past : List Incident} {throwing : Bool}
    (stepping : stageOf past = .stepping throwing) : .begun throwing ∈ past := by
  rcases List.eq_nil_or_concat past with rfl | ⟨init, i, rfl⟩
  · cases stepping
  · rw [List.concat_eq_append, stageOf_concat] at stepping
    cases i with
    | begun b =>
      cases stepping
      simp
    | _ => cases stepping

theorem stageOf_fresh {past : List Incident} : stageOf past = .fresh ↔ past = [] := by
  constructor
  · intro fresh
    rcases List.eq_nil_or_concat past with rfl | ⟨init, i, rfl⟩
    · rfl
    · rw [List.concat_eq_append, stageOf_concat] at fresh
      cases i <;> cases fresh
  · rintro rfl
    rfl

/-! ## What a stage looks like -/

namespace Stage

/-- The state of a compiled context. -/
def compiled (n : Nat) : Stage → Backing
  | .fresh => .compiled .justStarted 0
  | .stepping throwing => .compiled (if throwing then .throwing else .running) 0
  | .suspended => .compiled .running n
  | .finished => .compiled .completed 0

/-- The state of the record of an interpreted context. -/
def record : Stage → Option RecordState
  | .fresh => some .created
  | .stepping _ => some .executing
  | .suspended => some .suspended
  | .finished => none

def isExecuting : Stage → Bool
  | .stepping _ => true
  | _ => false

def isRunnable : Stage → Bool
  | .fresh => true
  | .suspended => true
  | _ => false

/-- The life of a context; only a compiled one tells an exception in flight. -/
def state (compiled : Bool) : Stage → GenState
  | .fresh => .justStarted
  | .stepping throwing => if throwing && compiled then .throwing else .running
  | .suspended => .running
  | .finished => .completed

end Stage

namespace World

inductive Shows (w : World ε) (g : GenId) (n : Nat) : Stage → Prop where
  | compiled {p : Stage} (backing : (w.generator g).backing = p.compiled n) : Shows w g n p
  | live {p : Stage} {r : RecordId} (backing : (w.generator g).backing = .interpreted (some r))
      (state : p.record = some (w.record r).state) (start : (w.record r).lastInstr = -1 ↔ p = .fresh) :
      Shows w g n p
  | retired (backing : (w.generator g).backing = .interpreted none) : Shows w g n .finished

namespace Shows

variable {w : World ε} {g : GenId} {n : Nat} {p : Stage}

theorem isCompleted (shows : w.Shows g n p) : w.isCompleted g = decide (p = .finished) := by
  cases shows with
  | compiled backing =>
    cases p with
    | stepping throwing => cases throwing <;> simp [World.isCompleted, backing, Stage.compiled]
    | _ => simp [World.isCompleted, backing, Stage.compiled]
  | live backing state start =>
    cases p <;> simp [World.isCompleted, backing, Stage.record] at state ⊢ <;>
      simp [← state, RecordState.isCompleted]
  | retired backing => simp [World.isCompleted, backing]

theorem isExecuting (shows : w.Shows g n p) (pos : p = .suspended → 0 < n) :
    w.isExecuting g = p.isExecuting := by
  cases shows with
  | compiled backing =>
    cases p with
    | stepping throwing => cases throwing <;> simp [World.isExecuting, backing, Stage.compiled, Stage.isExecuting]
    | suspended =>
      have := pos rfl
      simp [World.isExecuting, backing, Stage.compiled, Stage.isExecuting]
      omega
    | _ => simp [World.isExecuting, backing, Stage.compiled, Stage.isExecuting]
  | live backing state start =>
    cases p <;> simp [World.isExecuting, backing, Stage.record, Stage.isExecuting] at state ⊢ <;>
      simp [← state, RecordState.isExecuting]
  | retired backing => simp [World.isExecuting, backing, Stage.isExecuting]

theorem isRunnable (shows : w.Shows g n p) (pos : p = .suspended → 0 < n) :
    w.isRunnable g = p.isRunnable := by
  cases shows with
  | compiled backing =>
    cases p with
    | stepping throwing => cases throwing <;> simp [World.isRunnable, backing, Stage.compiled, Stage.isRunnable]
    | suspended =>
      have := pos rfl
      simp [World.isRunnable, backing, Stage.compiled, Stage.isRunnable]
      omega
    | _ => simp [World.isRunnable, backing, Stage.compiled, Stage.isRunnable]
  | live backing state start =>
    cases p <;> simp [World.isRunnable, backing, Stage.record, Stage.isRunnable] at state ⊢ <;>
      simp [← state, RecordState.isRunnable]
  | retired backing => simp [World.isRunnable, backing, Stage.isRunnable]

theorem isJustStarted (shows : w.Shows g n p) : w.isJustStarted g = decide (p = .fresh) := by
  cases shows with
  | compiled backing =>
    cases p with
    | stepping throwing => cases throwing <;> simp [World.isJustStarted, backing, Stage.compiled]
    | _ => simp [World.isJustStarted, backing, Stage.compiled]
  | live backing state start => simp [World.isJustStarted, backing, start]
  | retired backing => simp [World.isJustStarted, backing]

theorem yieldPoint (shows : w.Shows g n p) (pos : p = .suspended → 0 < n)
    (counted : (w.generator g).yields = n) : w.yieldPoint g = if p = .suspended then some n else none := by
  cases shows with
  | compiled backing =>
    cases p with
    | suspended =>
      have := pos rfl
      simp [World.yieldPoint, backing, Stage.compiled]
      omega
    | _ => simp [World.yieldPoint, backing, Stage.compiled]
  | live backing state start =>
    cases p with
    | suspended =>
      have := pos rfl
      have suspended : (w.record _).state = .suspended := (Option.some.inj state).symm
      simp [World.yieldPoint, backing, suspended, counted]
      omega
    | finished => cases state
    | _ => simp [World.yieldPoint, backing, ← Option.some.inj state]
  | retired backing => simp [World.yieldPoint, backing]

theorem stateOf (shows : w.Shows g n p) : w.stateOf g = p.state (w.generator g).isCompiled := by
  have completed := shows.isCompleted
  have started := shows.isJustStarted
  cases shows with
  | compiled backing =>
    have compiled : (w.generator g).isCompiled = true := by
      rw [Generator.isCompiled, backing]
      cases p <;> rfl
    rw [compiled, World.stateOf, backing]
    cases p <;> simp [Stage.compiled, Stage.state]
  | live backing state start =>
    simp only [World.stateOf, backing, completed, started, Generator.isCompiled]
    cases p with
    | finished => cases state
    | _ => simp [Stage.state]
  | retired backing => simp [World.stateOf, backing, completed, Stage.state]

end Shows

end World

end Activation
