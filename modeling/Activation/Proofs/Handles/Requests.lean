import Activation.Proofs.Handles.Accounts
import Activation.Proofs.Handles.Contexts

/-! # Requests to resume

The two halves of a request, taken apart into moves. Where all handles are accounted for, a request panics
only if its body does, if its frame cannot be pushed, or if its frame is not on top at the end; and the panic
has gone when the caller sees the result.

* `Moves.answered`: a request that needs no body.
* `Moves.entered`: a request up to the first instruction of the body.
* `Moves.ended`, `Moves.strayed`: the end of a turn.
-/

namespace Activation
set_option autoImplicit false

variable {ε : Type}

/-! ## Reading steady worlds -/

namespace Steady

variable {F : Footprint} {w v : World ε}

theorem live (steady : Steady F w v) (unborn : ¬ F.births) {g : GenId} {r : RecordId}
    (live : (v.generator g).live = some r) : (w.generator g).live = some r := by
  have found := World.get?_of_live live
  rcases steady.generators.origin g _ found with ⟨x, there, keeps⟩ | ⟨-, born⟩
  · rw [World.generator_of_get? there]
    rcases keeps.live with same | gone
    · rw [← same]; exact live
    · rw [gone] at live; cases live
  · exact absurd born unborn

theorem frame_record (steady : Steady F w v) {f : FrameId} {r : RecordId}
    (record : (v.frame f).record = some r) : (w.frame f).record = some r ∨ F.attached r := by
  cases found : v.frames.get? f with
  | none => simp [World.frame, found, Frame.absent] at record
  | some y =>
    rw [World.frame_of_get? found] at record
    rcases steady.frames.origin f y found with ⟨x, there, keeps⟩ | ⟨-, fresh⟩
    · rcases keeps.record with same | ⟨-, attached⟩
      · exact .inl (by rw [World.frame_of_get? there, ← same]; exact record)
      · exact .inr (attached r record)
    · exact .inr (fresh.record r record)

theorem record_kept (steady : Steady F w v) {f : FrameId} {r : RecordId} (bound : (w.frame f).record = some r)
    (has : v.Has (.frame f)) : (v.frame f).record = some r := by
  obtain ⟨y, found⟩ := Option.isSome_iff_exists.mp has
  cases there : w.frames.get? f with
  | none => simp [World.frame, there, Frame.absent] at bound
  | some x =>
    obtain ⟨x', there', keeps⟩ := steady.frames.old (w.frames.lt_next there) found
    rw [World.frame_of_get? there'] at bound
    rw [World.frame_of_get? found]
    rcases keeps.record with kept | ⟨compact, -⟩
    · rw [kept]; exact bound
    · rw [compact] at bound; cases bound

theorem prev_eq (steady : Steady F w v) {f : FrameId} (other : ¬ F.links f) (has : v.Has (.frame f)) :
    (v.frame f).prev = (w.frame f).prev := by
  obtain ⟨y, found⟩ := Option.isSome_iff_exists.mp has
  rw [World.frame_of_get? found]
  rcases steady.frames.origin f y found with ⟨x, there, keeps⟩ | ⟨late, fresh⟩
  · rw [World.frame_of_get? there, keeps.prev.resolve_left other]
  · rw [fresh.prev.resolve_left other]
    cases there : w.frames.get? f with
    | none => simp [World.frame, there, Frame.absent]
    | some x => exact absurd (w.frames.lt_next there) (Nat.not_lt.mpr late)

theorem context (steady : Steady F w v) (unborn : ¬ F.births) {g : GenId} (has : v.Has (.generator g)) :
    F.KeepsContext g (w.generator g) (v.generator g) := by
  obtain ⟨y, found⟩ := Option.isSome_iff_exists.mp has
  rcases steady.generators.origin g y found with ⟨x, there, keeps⟩ | ⟨-, born⟩
  · rw [World.generator_of_get? there, World.generator_of_get? found]
    exact keeps
  · exact absurd born unborn

end Steady

namespace World

theorem isUnwinding_of_none {w : World ε} (calm : w.fault = none) : w.isUnwinding = false := by
  simp [isUnwinding, calm]

theorem isUnwinding_of_unwinding {w : World ε} {p : Panic} (fault : w.fault = some (.unwinding p)) :
    w.isUnwinding = true := by
  simp [isUnwinding, fault]

theorem panic_of_none {w : World ε} (calm : w.fault = none) (p : Panic) :
    w.panic p = { w with fault := some (.unwinding p) } := by
  simp [panic, calm]

theorem catchPanic_of_none {w : World ε} (calm : w.fault = none) : w.catchPanic = (none, w) := by
  simp [catchPanic, calm]

theorem catchPanic_of_unwinding {w : World ε} {p : Panic} (fault : w.fault = some (.unwinding p)) :
    w.catchPanic = (some p, { w with fault := none }) := by
  simp [catchPanic, fault]

theorem cleanUp_of_unwinding {w : World ε} {p : Panic} {f : World ε → World ε}
    (fault : w.fault = some (.unwinding p)) (calm : (f { w with fault := none }).fault = none) :
    w.cleanUp f = { f { w with fault := none } with fault := some (.unwinding p) } := by
  simp only [cleanUp, catchPanic_of_unwinding fault, catchPanic_of_none calm, calm, Option.none_or]

theorem settlePanic_of_none {w : World ε} (calm : w.fault = none) (result : Resumption) :
    settlePanic result w = (result, w) := by
  simp [settlePanic, catchPanic_of_none calm]

theorem settlePanic_of_unwinding {w : World ε} {p : Panic} (fault : w.fault = some (.unwinding p))
    (result : Resumption) : settlePanic result w = (.panicked p, { w with fault := none }) := by
  simp [settlePanic, catchPanic_of_unwinding fault]

end World

/-! ## What a context has -/

namespace Accounted

variable {w : World ε} {out : Multiset Handle} {g : GenId}

theorem has_record (acc : Accounted w out) {r : RecordId} (live : (w.generator g).live = some r) :
    w.Has (.record r) :=
  acc.has_of_generator (World.get?_of_live live) (by simp [Generator.held_eq, live])

theorem has_frame (acc : Accounted w out) (has : w.Has (.generator g)) :
    w.Has (.frame (w.generator g).frame) := by
  obtain ⟨x, found⟩ := Option.isSome_iff_exists.mp has
  rw [World.generator_of_get? found]
  exact acc.has_of_generator found (by simp [Generator.held])

theorem has_prev (acc : Accounted w out) {f k : FrameId} (link : (w.frame f).prev = some k) : w.Has (.frame k) :=
  acc.has_of_frame (h := .below k) (World.get?_of_prev link) (by simp [Frame.held, Frame.heldBelow, link])

end Accounted

/-! ## Panics -/

theorem Accounted.setFault {w : World ε} {out : Multiset Handle} (acc : Accounted w out) (x : Option Fault) :
    Accounted { w with fault := x } out :=
  acc.of_same (fun h n counted => by cases h <;> exact counted) fun _ => rfl

theorem Accounted.emit {w : World ε} {out : Multiset Handle} (acc : Accounted w out) (e : Event) :
    Accounted (w.emit e) out := acc.quiet (.emit w e)

/-- Anything may change, as long as nothing panics. -/
def Footprint.calm : Footprint where
  retained _ := True
  contexts _ := True
  records _ := True
  attached _ := True
  links _ := True
  stack := True
  births := True
  faults := False

/-- Where the accounts are right, moves without a panic stay without one. -/
theorem Moves.fault_eq {F : Footprint} {w v : World ε} {out rest : Multiset Handle}
    (moves : Moves F w out v rest) (acc : Accounted w out) (calm : ¬ F.faults) : v.fault = w.fault :=
  (moves.accounted acc).2.resolve_left calm

namespace Accounted

variable {w v : World ε} {out rest : Multiset Handle}

theorem fault_drop {hs : List Handle} (acc : Accounted w (↑hs + out)) : (w.drop hs).fault = w.fault :=
  (Moves.drop (F := .calm) w hs).fault_eq acc id

theorem fault_complete (acc : Accounted w out) (g : GenId) (final : RecordState) :
    (w.complete g final).fault = w.fault :=
  (Moves.complete (F := .calm) g final trivial fun _ _ => trivial).fault_eq acc id

theorem fault_abandon (acc : Accounted w out) {p : Panic} (fault : w.fault = some (.unwinding p))
    (g : GenId) : (w.abandon g).fault = some (.unwinding p) := by
  unfold World.abandon
  generalize told : w.emit _ = v
  have vacc : Accounted v out := told ▸ acc.emit _
  have vfault : v.fault = some (.unwinding p) := by rw [← told]; exact fault
  rw [World.cleanUp_of_unwinding vfault ((vacc.setFault none).fault_complete g .raised)]

end Accounted

/-! ## The first half -/

/-- The record goes to the frame, and the rest to the body. -/
theorem Injection.offered_add (inj : Injection) (external : Option RecordId) (out : Multiset Handle) :
    (inj.offered external : Multiset Handle) + out =
      ↑(external.toList.map Handle.record) + (↑inj.held + out) := by
  simp only [Injection.offered, ← Multiset.coe_add, add_assoc]

namespace Moves

variable {F : Footprint} {w v : World ε} {out rest : Multiset Handle}

theorem takeBody {g : GenId} {external : Option RecordId} (context : F.contexts g)
    (has : w.Has (.frame (w.generator g).frame)) (attached : ∀ r, external = some r → F.attached r) :
    Moves F w (↑(external.toList.map Handle.record) + out) (w.takeBody g external) out := by
  have taken : Moves F w (↑(external.toList.map Handle.record) + out)
      (w.modifyGenerator g fun x => { x with body := none })
      (↑(external.toList.map Handle.record) + out) :=
    editGenerator g _ (fun _ => rfl) (fun _ => rfl) (fun _ => rfl) (fun _ _ => rfl) (.inl context)
  simp only [World.takeBody]
  cases external with
  | none => exact taken.cast rfl (by simp)
  | some r =>
    have same : ((w.modifyGenerator g fun x => { x with body := none }).generator g).frame =
        (w.generator g).frame := World.generator_modifyGenerator Generator.frame w g g _ fun _ => rfl
    refine taken.trans ((bindRecord ?_ (attached r rfl)).cast (by simp) rfl)
    rw [same]
    exact has

end Moves

/-- What a request may change: the context, its record, and the record that goes with its frame. -/
structure Footprint.Admits (F : Footprint) (w : World ε) (g : GenId) (external : Option RecordId) : Prop where
  context : F.contexts g
  live : ∀ r, (w.generator g).live = some r → F.records r
  frame : ∀ r, (w.frame (w.generator g).frame).record = some r → F.records r
  external : ∀ r, external = some r → F.records r ∧ F.attached r

/-- The footprint of a request before its frame is on the stack. -/
def Footprint.request (g : GenId) : Footprint where
  contexts k := k = g
  records _ := True
  attached _ := True

theorem Footprint.Admits.request (w : World ε) (g : GenId) (external : Option RecordId) :
    (Footprint.request g).Admits w g external :=
  ⟨rfl, fun _ _ => trivial, fun _ _ => trivial, fun _ _ => ⟨trivial, trivial⟩⟩

namespace Moves

variable {F : Footprint} {w v : World ε} {out rest : Multiset Handle}

/-- The context is ready for its turn, but its frame is not on the stack yet. -/
theorem prepare {g : GenId} {external : Option RecordId} (inj : Injection) (admits : F.Admits w g external)
    (acc : Accounted w (↑(inj.offered external) + out)) (owned : .generator g ∈ out) :
    Moves F w (↑(inj.offered external) + out) ((w.takeBody g external).begin g inj.isThrowing)
      (↑inj.held + out) := by
  rw [inj.offered_add] at acc ⊢
  have owned' : .generator g ∈ (↑inj.held + out : Multiset Handle) := Multiset.mem_add.mpr (.inr owned)
  have has : w.Has (.frame (w.generator g).frame) :=
    acc.has_frame (acc.has (Multiset.mem_add.mpr (.inr owned')))
  -- taking the body out changes less than the request may change, so the frame and the record are as before
  let G : Footprint := { contexts := fun k => k = g, attached := fun r => external = some r }
  have small : Moves G w (↑(external.toList.map Handle.record) + (↑inj.held + out)) (w.takeBody g external)
      (↑inj.held + out) := takeBody rfl has fun _ own => own
  have steady := small.steady
  have there : (w.takeBody g external).Has (.generator g) := (small.accounted acc).1.has owned'
  have keeps := steady.context id there
  refine (takeBody admits.context has fun r own => (admits.external r own).2).trans
    (begin g inj.isThrowing admits.context (fun r live => ?_) fun r live => ?_)
  · rw [keeps.frame] at live
    rcases steady.frame_record live with before | given
    · exact admits.frame r before
    · exact (admits.external r given).1
  · exact admits.live r (steady.live id live)

end Moves

/-! ## Verdicts -/

theorem Injection.held_of_isClosing {inj : Injection} (closing : inj.isClosing = true) : inj.held = [] := by
  cases inj with
  | close => rfl
  | _ => cases closing

/-- What a verdict says about the context. -/
inductive Judged (w : World ε) (g : GenId) (inj : Injection) : Verdict → Prop where
  | executing (executing : w.isExecuting g = true) :
      Judged w g inj (.refuse (.alreadyExecuting (w.generator g).kind))
  | ignored (idle : w.isExecuting g = false) (completed : w.isCompleted g = true)
      (closing : inj.isClosing = true) : Judged w g inj .ignore
  | exhausted (idle : w.isExecuting g = false) (completed : w.isCompleted g = true)
      (calling : inj.isClosing = false) : Judged w g inj (.refuse (.exhausted (w.generator g).kind))
  | valued (idle : w.isExecuting g = false) (going : w.isCompleted g = false)
      (fresh : w.isJustStarted g = true) (sends : w.sendsValue inj = true) :
      Judged w g inj (.refuse (.nonNoneToJustStarted (w.generator g).kind))
  | finished (idle : w.isExecuting g = false) (going : w.isCompleted g = false)
      (fresh : w.isJustStarted g = true) (closing : inj.isClosing = true) : Judged w g inj .finish
  | bodiless (idle : w.isExecuting g = false) (going : w.isCompleted g = false)
      (fits : w.isJustStarted g = true → w.sendsValue inj = false ∧ inj.isClosing = false)
      (busy : (w.generator g).body = none) :
      Judged w g inj (.refuse (.alreadyExecuting (w.generator g).kind))
  | entered (idle : w.isExecuting g = false) (going : w.isCompleted g = false)
      (fits : w.isJustStarted g = true → w.sendsValue inj = false ∧ inj.isClosing = false)
      {body : BodyId} (ready : (w.generator g).body = some body) : Judged w g inj (.enter body)

/-- What becomes of a request, where taking out the body does not panic. -/
inductive Received (w : World ε) (g : GenId) (inj : Injection) (external : Option RecordId) :
    Admission ε → Prop where
  | refused {e : GeneratorError} (judged : Judged w g inj (.refuse e)) {hs : List Handle}
      (all : (hs : Multiset Handle) = ↑(inj.offered external)) :
      Received w g inj external (.answered (.refused e) (w.drop hs))
  | ignored (judged : Judged w g inj .ignore) :
      Received w g inj external (.answered (.done (.returned nothing)) (w.drop (inj.offered external)))
  | finished (judged : Judged w g inj .finish) :
      Received w g inj external
        (.answered (.done (.returned nothing)) ((w.complete g .cleared).drop (inj.offered external)))
  | entered {body : BodyId} (judged : Judged w g inj (.enter body)) :
      Received w g inj external
        (((w.takeBody g external).begin g inj.isThrowing).startTurn g body inj)

namespace World

theorem judged (w : World ε) (g : GenId) (inj : Injection) : Judged w g inj (w.verdict g inj) := by
  simp only [World.verdict]
  cases executing : w.isExecuting g with
  | true => exact .executing executing
  | false =>
    cases completed : w.isCompleted g with
    | true =>
      cases closing : inj.isClosing with
      | true => exact .ignored executing completed closing
      | false => exact .exhausted executing completed closing
    | false =>
      cases fresh : w.isJustStarted g with
      | false =>
        cases ready : (w.generator g).body with
        | none => exact .bodiless executing completed (by simp [fresh]) ready
        | some body => exact .entered executing completed (by simp [fresh]) ready
      | true =>
        cases sends : w.sendsValue inj with
        | true => exact .valued executing completed fresh sends
        | false =>
          cases closing : inj.isClosing with
          | true => exact .finished executing completed fresh closing
          | false =>
            cases ready : (w.generator g).body with
            | none => exact .bodiless executing completed (fun _ => ⟨sends, closing⟩) ready
            | some body => exact .entered executing completed (fun _ => ⟨sends, closing⟩) ready

theorem received {w : World ε} {g : GenId} {inj : Injection} {external : Option RecordId}
    (calm : (w.takeBody g external).fault = none) :
    Received w g inj external (w.receive g inj external) := by
  have judged := w.judged g inj
  cases verdict : w.verdict g inj with
  | refuse e =>
    rw [verdict] at judged
    cases e with
    | nonNoneToJustStarted kind =>
      simp only [receive, verdict]
      exact .refused judged (Multiset.coe_eq_coe.mpr List.perm_append_comm)
    | _ =>
      simp only [receive, verdict]
      exact .refused judged rfl
  | ignore =>
    rw [verdict] at judged
    have alone : inj.held = [] := by cases judged with
      | ignored _ _ closing => exact Injection.held_of_isClosing closing
    have eq : Received w g inj external _ := .ignored judged
    simp only [Injection.offered, alone, List.append_nil] at eq
    simpa only [receive, verdict] using eq
  | finish =>
    rw [verdict] at judged
    have alone : inj.held = [] := by cases judged with
      | finished _ _ _ closing => exact Injection.held_of_isClosing closing
    have eq : Received w g inj external _ := .finished judged
    simp only [Injection.offered, alone, List.append_nil] at eq
    simpa only [receive, verdict] using eq
  | enter body =>
    rw [verdict] at judged
    simp only [receive, verdict, isUnwinding_of_none calm, Bool.false_eq_true, if_false]
    exact .entered judged

end World

/-! ## Requests that need no body -/

namespace Accounted

variable {w v : World ε} {out rest : Multiset Handle}

/-- Taking out the body does not panic where the accounts are right. -/
theorem received {g : GenId} {inj : Injection} {external : Option RecordId}
    (acc : Accounted w (↑(inj.offered external) + out)) (owned : .generator g ∈ out) (calm : w.fault = none) :
    Received w g inj external (w.receive g inj external) := by
  rw [inj.offered_add] at acc
  have has : w.Has (.frame (w.generator g).frame) :=
    acc.has_frame (acc.has (Multiset.mem_add.mpr (.inr (Multiset.mem_add.mpr (.inr owned)))))
  have taken : Moves .calm w _ (w.takeBody g external) (↑inj.held + out) :=
    .takeBody trivial has fun _ _ => trivial
  exact World.received ((taken.fault_eq acc id).trans calm)

/-- If the frame cannot be pushed, the panic of the request is still unwinding. -/
theorem fault_startTurn {g : GenId} {body : BodyId} {inj : Injection} {result : Resumption}
    (acc : Accounted w (↑inj.held + out)) (calm : w.fault = none)
    (answered : w.startTurn g body inj = .answered result v) :
    ∃ p, result = .panicked p ∧ v.fault = some (.unwinding p) := by
  simp only [World.startTurn] at answered
  split at answered
  · next p _ =>
    cases answered
    refine ⟨p, rfl, ?_⟩
    have acc' : Accounted (w.panic p) (↑inj.held + out) := by
      rw [World.panic_of_none calm]
      exact acc.setFault _
    have fault : (w.panic p).fault = some (.unwinding p) := by rw [World.panic_of_none calm]
    have left : Accounted ((w.panic p).abandon g) (↑inj.held + out) :=
      ((Moves.abandon (F := { Footprint.calm with faults := True }) g trivial trivial
        fun _ _ => trivial).accounted acc').1
    rw [left.fault_drop]
    exact acc'.fault_abandon fault g
  · cases answered

end Accounted

namespace Moves

variable {F : Footprint} {w v : World ε} {out rest : Multiset Handle}

/-- The caller sees the end of a panic, and gets nothing then. -/
theorem settled {result : Resumption} (faults : F.faults) (moves : Moves F w out v (↑result.held + rest))
    (state : v.fault = none ∨ ∃ p, result = .panicked p ∧ v.fault = some (.unwinding p)) :
    Moves F w out (World.settlePanic result v).2 (↑(World.settlePanic result v).1.held + rest) ∧
      (World.settlePanic result v).2.fault = none := by
  rcases state with calm | ⟨p, rfl, fault⟩
  · rw [World.settlePanic_of_none calm]
    exact ⟨moves, calm⟩
  · rw [World.settlePanic_of_unwinding fault]
    exact ⟨moves.trans (one (.fault faults none)), rfl⟩

theorem answered {g : GenId} {inj : Injection} {external : Option RecordId} {result : Resumption}
    (admits : F.Admits w g external) (faults : F.faults) (lasting : w.Immortal nothing)
    (acc : Accounted w (↑(inj.offered external) + out)) (owned : .generator g ∈ out) (calm : w.fault = none)
    (answered : w.receive g inj external = .answered result v) :
    Moves F w (↑(inj.offered external) + out) (World.settlePanic result v).2
      (↑(World.settlePanic result v).1.held + out) ∧ (World.settlePanic result v).2.fault = none := by
  have received := acc.received owned calm
  rw [answered] at received
  generalize admission : Admission.answered result v = a at received
  cases received with
  | @refused e judged hs all =>
    cases admission
    have given : Moves F w (↑hs + out) (w.drop hs) out := drop w hs
    rw [all] at given
    refine settled faults (given.cast rfl (by simp [Resumption.held])) (.inl ?_)
    rw [← all] at acc
    exact acc.fault_drop.trans calm
  | ignored judged =>
    cases admission
    have given : Moves F w (↑(inj.offered external) + out) (w.drop (inj.offered external)) out := drop w _
    refine settled faults ((given.trans (mintNothing (given.immortal lasting))).cast rfl ?_) (.inl ?_)
    · simp [Resumption.held]
    · exact acc.fault_drop.trans calm
  | finished judged =>
    cases admission
    have closed : Moves F w (↑(inj.offered external) + out) (w.complete g .cleared)
        (↑(inj.offered external) + out) := complete g .cleared admits.context admits.live
    have given := closed.trans (drop _ (inj.offered external))
    refine settled faults ((given.trans (mintNothing (given.immortal lasting))).cast rfl ?_) (.inl ?_)
    · simp [Resumption.held]
    · have acc' := (closed.accounted acc).1
      rw [acc'.fault_drop, acc.fault_complete]
      exact calm
  | entered judged =>
    have prepared := prepare inj admits acc owned
    have small : Moves (.request g) w _ _ _ := prepare inj (.request w g external) acc owned
    have acc' := (prepared.accounted acc).1
    have calm' := (small.fault_eq acc id).trans calm
    have refused : Moves F _ (↑inj.held + out) v (↑result.held + out) :=
      startTurn_answered admits.context faults (fun r live => admits.live r (small.steady.live id live)) admission.symm
    exact settled faults (prepared.trans refused) (.inr (acc'.fault_startTurn calm' admission.symm))

end Moves

/-! ## Requests that are handed to the body -/

/-- A request that is handed to the body: which turn begins, and in which world. -/
theorem World.receive_entered {w v : World ε} {out : Multiset Handle} {g : GenId} {inj : Injection}
    {external : Option RecordId} {t : Turn} (acc : Accounted w (↑(inj.offered external) + out))
    (owned : .generator g ∈ out) (calm : w.fault = none)
    (entered : w.receive g inj external = .entered t v) :
    ∃ body, Judged w g inj (.enter body) ∧ t = ⟨g, (w.generator g).frame, body, inj.isClosing⟩ ∧
      ((w.takeBody g external).begin g inj.isThrowing).enter t.frame = .ok v := by
  have received := acc.received owned calm
  rw [entered] at received
  generalize admission : Admission.entered t v = a at received
  cases received with
  | refused => cases admission
  | ignored => cases admission
  | finished => cases admission
  | @entered body judged =>
    have small : Moves (.request g) w _ _ _ := .prepare inj (.request w g external) acc owned
    have there := (small.accounted acc).1.has (Multiset.mem_add.mpr (.inr owned))
    have same := (small.steady.context id there).frame
    simp only [World.startTurn] at admission
    split at admission
    · cases admission
    · next u pushed =>
      cases admission
      rw [same] at pushed ⊢
      exact ⟨body, judged, rfl, pushed⟩

namespace Moves

variable {F : Footprint} {w v : World ε} {out rest : Multiset Handle}

theorem entered {g : GenId} {inj : Injection} {external : Option RecordId} {t : Turn}
    (admits : F.Admits w g external) (links : F.links (w.generator g).frame) (stack : F.stack)
    (acc : Accounted w (↑(inj.offered external) + out)) (owned : .generator g ∈ out) (calm : w.fault = none)
    (entered : w.receive g inj external = .entered t v) :
    Moves F w (↑(inj.offered external) + out) v (.frame t.frame ::ₘ (↑inj.held + out)) := by
  obtain ⟨body, -, rfl, pushed⟩ := World.receive_entered acc owned calm entered
  have prepared := prepare inj admits acc owned
  have small : Moves (.request g) w _ _ _ := prepare inj (.request w g external) acc owned
  have acc' := (small.accounted acc).1
  have there : ((w.takeBody g external).begin g inj.isThrowing).Has (.generator g) :=
    acc'.has (Multiset.mem_add.mpr (.inr owned))
  have has := acc'.has_frame there
  rw [(small.steady.context id there).frame] at has
  exact prepared.trans (enter has links stack pushed)

end Moves

/-! ## The end of a turn -/

namespace World

theorem conclude_of_calm (w : World ε) (t : Turn) {ending : Ending} (calm : ending.isPanic = false) :
    w.conclude t ending =
      if (w.leave t.frame).isUnwinding then (.panicked .unbalancedPop, w.leave t.frame)
      else
        ((w.leave t.frame).modifyGenerator t.context fun x => { x with body := some t.body }).settle t.context
          t.closing ending := by
  cases ending with
  | panics p => cases calm
  | _ => rfl

theorem pop_fst (w : World ε) : w.pop.1 = w.stack.current := by
  unfold pop
  split <;> simp_all

theorem fault_pop (w : World ε) : w.pop.2.fault = w.fault := by
  unfold pop
  split <;> rfl

end World

/-- The footprint of a frame that leaves the stack. -/
def Footprint.leaving (w : World ε) : Footprint where
  links f := w.stack.current = some f
  stack := True

namespace Accounted

variable {w : World ε} {out : Multiset Handle} {f : FrameId}

theorem fault_leave (acc : Accounted w (.frame f ::ₘ out)) (balanced : w.stack.current = some f) :
    (w.leave f).fault = w.fault :=
  (Moves.leave (F := .leaving w) f (fun _ top => top) trivial (.inr balanced)).fault_eq acc id

/-- The frame of a body that panics comes off the stack, and the panic goes on. -/
theorem leave_panicking (acc : Accounted w (.frame f ::ₘ out)) (calm : w.fault = none)
    (balanced : w.stack.current = some f) (p : Panic) :
    Accounted ((w.panic p).leave f) out ∧ ((w.panic p).leave f).fault = some (.unwinding p) := by
  have acc' : Accounted (w.panic p) (.frame f ::ₘ out) := by
    rw [World.panic_of_none calm]
    exact acc.setFault _
  have balanced' : (w.panic p).stack.current = some f := by
    rw [World.panic_of_none calm]
    exact balanced
  have left : Moves (.leaving (w.panic p)) (w.panic p) (.frame f ::ₘ out) ((w.panic p).leave f) out :=
    .leave f (fun _ top => top) trivial (.inr balanced')
  exact ⟨(left.accounted acc').1, (acc'.fault_leave balanced').trans (by rw [World.panic_of_none calm])⟩

/-- The panic of a body is still unwinding when its context has finished. -/
theorem fault_panicked (acc : Accounted w (.frame f ::ₘ out)) (calm : w.fault = none)
    (balanced : w.stack.current = some f) (p : Panic) (g : GenId) :
    (((w.panic p).leave f).abandon g).fault = some (.unwinding p) := by
  obtain ⟨left, fault⟩ := acc.leave_panicking calm balanced p
  exact left.fault_abandon fault g

/-- A guard that does not find its own frame on top panics. -/
theorem fault_leave_strayed (acc : Accounted w (.frame f ::ₘ out)) (calm : w.fault = none)
    (unbalanced : w.stack.current ≠ some f) : (w.leave f).fault = some (.unwinding .unbalancedPop) := by
  have popped : Accounted w.pop.2 (↑(w.pop.1.toList.map Handle.frame) + (.frame f ::ₘ out)) :=
    ((Moves.pop (F := .calm) (fun _ _ => trivial) trivial).accounted acc).1
  have calm' : w.pop.2.fault = none := w.fault_pop.trans calm
  have other : ¬ w.pop.1 = some f := by rw [World.pop_fst]; exact unbalanced
  have panicking : Accounted { w.pop.2 with fault := some (.unwinding .unbalancedPop) }
      (↑(w.pop.1.toList.map Handle.frame ++ [Handle.frame f]) + out) := by
    rw [← Multiset.coe_add, add_assoc]
    exact popped.setFault _
  rw [World.leave_eq, if_neg other, World.panic_of_none calm']
  exact panicking.fault_drop

end Accounted

namespace World

/-- The world after a turn, with the frame off the stack and the body back in its context. -/
def restored (w : World ε) (t : Turn) : World ε :=
  (w.leave t.frame).modifyGenerator t.context fun x => { x with body := some t.body }

theorem finish_of_calm {w : World ε} {t : Turn} {ending : Ending} {out : Multiset Handle}
    (acc : Accounted w (.frame t.frame ::ₘ out)) (calm : w.fault = none)
    (balanced : w.stack.current = some t.frame) (sane : ending.isPanic = false) :
    w.finish t ending = settlePanic ((w.restored t).settle t.context t.closing ending).1
      ((w.restored t).settle t.context t.closing ending).2 := by
  have left : (w.leave t.frame).isUnwinding = false :=
    isUnwinding_of_none ((acc.fault_leave balanced).trans calm)
  unfold finish
  rw [conclude_of_calm w t sane, left, if_neg Bool.false_ne_true]
  rfl

end World

namespace Moves

variable {F : Footprint} {w v : World ε} {out rest : Multiset Handle}

theorem restore (g : GenId) (body : BodyId) (context : F.contexts g) :
    Moves F w out (w.modifyGenerator g fun x => { x with body := some body }) out :=
  editGenerator g _ (fun _ => rfl) (fun _ => rfl) (fun _ => rfl) (fun _ _ => rfl) (.inl context)

theorem ended_panics {t : Turn} {p : Panic} (context : F.contexts t.context)
    (records : ∀ r, (w.generator t.context).live = some r → F.records r) (links : F.links t.frame) (stack : F.stack)
    (faults : F.faults) (acc : Accounted w (.frame t.frame ::ₘ out)) (calm : w.fault = none)
    (balanced : w.stack.current = some t.frame) :
    Moves F w (.frame t.frame ::ₘ out) (w.finish t (.panics p)).2
      (↑(w.finish t (.panics p)).1.held + out) ∧ (w.finish t (.panics p)).2.fault = none := by
  have balanced' : (w.panic p).stack.current = some t.frame := by
    rw [World.panic_of_none calm]
    exact balanced
  have failed : Moves F w (.frame t.frame ::ₘ out) (w.panic p) (.frame t.frame ::ₘ out) := panic p faults
  have left : Moves F (w.panic p) (.frame t.frame ::ₘ out) ((w.panic p).leave t.frame) out :=
    leave t.frame (fun k top => Option.some.inj (balanced'.symm.trans top) ▸ links) stack (.inr balanced')
  have small : Moves (.leaving (w.panic p)) (w.panic p) (.frame t.frame ::ₘ out)
      ((w.panic p).leave t.frame) out := leave t.frame (fun _ top => top) trivial (.inr balanced')
  have live : ∀ r, (((w.panic p).leave t.frame).generator t.context).live = some r → F.records r := by
    intro r bound
    have before := small.steady.live id bound
    rw [World.panic_eq] at before
    exact records r before
  have completed : Moves F ((w.panic p).leave t.frame) out (((w.panic p).leave t.frame).abandon t.context) out :=
    abandon t.context context faults live
  refine settled faults ((failed.trans (left.trans completed)).cast rfl ?_)
    (.inr ⟨p, rfl, acc.fault_panicked calm balanced p t.context⟩)
  simp [World.conclude, Resumption.held]

end Moves

namespace Accounted

variable {w : World ε} {out : Multiset Handle}

theorem restored {t : Turn} (acc : Accounted w (.frame t.frame ::ₘ out))
    (balanced : w.stack.current = some t.frame) : Accounted (w.restored t) out := by
  have left : Moves .calm w (.frame t.frame ::ₘ out) (w.leave t.frame) out :=
    .leave t.frame (fun _ _ => trivial) trivial (.inr balanced)
  exact ((left.trans (.restore t.context t.body trivial)).accounted acc).1

/-- The ending of a body that does not panic is settled without a panic. -/
theorem fault_settle {t : Turn} {ending : Ending} (acc : Accounted w (.frame t.frame ::ₘ (↑ending.held + out)))
    (sane : ending.isPanic = false) (lasting : w.Immortal nothing) (calm : w.fault = none)
    (balanced : w.stack.current = some t.frame) :
    ((w.restored t).settle t.context t.closing ending).2.fault = none := by
  have restored : Moves .calm w (.frame t.frame ::ₘ (↑ending.held + out)) (w.restored t) (↑ending.held + out) :=
    (Moves.leave t.frame (fun _ _ => trivial) trivial (.inr balanced)).trans
      (.restore t.context t.body trivial)
  have settled : Moves .calm (w.restored t) (↑ending.held + out) _
      (↑((w.restored t).settle t.context t.closing ending).1.held + out) :=
    .settle t.context t.closing ending sane trivial (fun _ _ => trivial) (restored.immortal lasting)
  rw [settled.fault_eq (acc.restored balanced) id, restored.fault_eq acc id]
  exact calm

end Accounted

namespace Moves

variable {F : Footprint} {w v : World ε} {out rest : Multiset Handle}

theorem ended_calm {t : Turn} {ending : Ending} (sane : ending.isPanic = false) (context : F.contexts t.context)
    (records : ∀ r, (w.generator t.context).live = some r → F.records r) (links : F.links t.frame) (stack : F.stack)
    (faults : F.faults) (lasting : w.Immortal nothing) (acc : Accounted w (.frame t.frame ::ₘ (↑ending.held + out)))
    (calm : w.fault = none) (balanced : w.stack.current = some t.frame) :
    Moves F w (.frame t.frame ::ₘ (↑ending.held + out)) (w.finish t ending).2
      (↑(w.finish t ending).1.held + out) ∧ (w.finish t ending).2.fault = none := by
  have left : Moves F w (.frame t.frame ::ₘ (↑ending.held + out)) (w.leave t.frame) (↑ending.held + out) :=
    leave t.frame (fun k top => Option.some.inj (balanced.symm.trans top) ▸ links) stack (.inr balanced)
  have small : Moves (.leaving w) w (.frame t.frame ::ₘ (↑ending.held + out)) (w.leave t.frame)
      (↑ending.held + out) := leave t.frame (fun _ top => top) trivial (.inr balanced)
  have restored : Moves F w (.frame t.frame ::ₘ (↑ending.held + out)) (w.restored t) (↑ending.held + out) :=
    left.trans (restore t.context t.body context)
  have acc' : Accounted (w.restored t) (↑ending.held + out) := (restored.accounted acc).1
  have live : ∀ r, ((w.restored t).generator t.context).live = some r → F.records r := fun r bound => by
    have same : ((w.restored t).generator t.context).live = ((w.leave t.frame).generator t.context).live :=
      World.generator_modifyGenerator Generator.live _ _ _ _ fun _ => rfl
    rw [same] at bound
    exact records r (small.steady.live id bound)
  have done : Moves F (w.restored t) (↑ending.held + out) ((w.restored t).settle t.context t.closing ending).2
      (↑((w.restored t).settle t.context t.closing ending).1.held + out) :=
    settle t.context t.closing ending sane context live (restored.immortal lasting)
  rw [World.finish_of_calm acc calm balanced sane]
  exact settled faults (restored.trans done) (.inl (acc.fault_settle sane lasting calm balanced))

theorem ended {t : Turn} {ending : Ending} (context : F.contexts t.context)
    (records : ∀ r, (w.generator t.context).live = some r → F.records r) (links : F.links t.frame) (stack : F.stack)
    (faults : F.faults) (lasting : w.Immortal nothing) (acc : Accounted w (.frame t.frame ::ₘ (↑ending.held + out)))
    (calm : w.fault = none) (balanced : w.stack.current = some t.frame) :
    Moves F w (.frame t.frame ::ₘ (↑ending.held + out)) (w.finish t ending).2
      (↑(w.finish t ending).1.held + out) ∧ (w.finish t ending).2.fault = none := by
  cases sane : ending.isPanic with
  | false => exact ended_calm sane context records links stack faults lasting acc calm balanced
  | true =>
    cases ending with
    | panics p =>
      have none : (↑(Ending.panics p).held + out : Multiset Handle) = out := by simp [Ending.held]
      rw [none] at acc ⊢
      exact ended_panics context records links stack faults acc calm balanced
    | _ => cases sane

/-- A turn ends without its frame on top of the stack; what the body hands over stays outside. -/
theorem strayed {t : Turn} {ending : Ending} (sane : ending.isPanic = false)
    (links : ∀ k, w.stack.current = some k → F.links k) (stack : F.stack) (faults : F.faults)
    (acc : Accounted w (.frame t.frame ::ₘ out)) (calm : w.fault = none)
    (unbalanced : w.stack.current ≠ some t.frame) :
    Moves F w (.frame t.frame ::ₘ out) (w.finish t ending).2 out ∧ (w.finish t ending).2.fault = none := by
  have fault := acc.fault_leave_strayed calm unbalanced
  have eq := w.conclude_of_calm t sane
  rw [World.isUnwinding_of_unwinding fault, if_pos rfl] at eq
  have left : Moves F w (.frame t.frame ::ₘ out) (w.leave t.frame) out := leave t.frame links stack (.inl faults)
  unfold World.finish
  rw [eq, World.settlePanic_of_unwinding fault]
  exact ⟨left.trans (one (.fault faults none)), rfl⟩

end Moves

end Activation
