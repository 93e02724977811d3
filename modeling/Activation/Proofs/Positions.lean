import Activation.Proofs.Notes
import Activation.Proofs.Writes

/-! # Positions of frames

A frame reports the position of its record once it has one. A record that is built for the frame takes over the
position of the frame, but a record that is handed to it comes with a position of its own.

* `Trail`: what the history of a frame says about its position: where it was put last, and the position of a record
  that it was handed since.
* `World.trail f`: the trail of a frame along a run, as notes.
* `position_follows_trail`: a frame for compiled code reports the position that its trail says, as long as its record
  is moved through the frame only.
* `handed_record_moves_frame`: handing a record to a frame changes what the frame reports.
-/

namespace Activation
set_option autoImplicit false

variable {ε : Type}

structure Trail where
  /-- Where the frame was put last. -/
  put : Int := -1
  /-- The position of a record that the frame was handed since. -/
  handed : Option Int := none
deriving DecidableEq

namespace Trail

def place (t : Trail) : Int := t.handed.getD t.put

/-- A body does not start before its first instruction. -/
def started (t : Trail) : Trail := if t.place < 0 then { put := 0 } else t

theorem place_started (t : Trail) : t.started.place = if t.place < 0 then 0 else t.place := by
  unfold started
  split <;> rfl

end Trail

namespace World

/-- A frame that has a record keeps its own. -/
def hands (w : World ε) (f : FrameId) : Option RecordId → Trail → Trail
  | none, t => t
  | some r, t =>
    if (w.frame f).isMaterialized then t else { t with handed := some (w.record r).lastInstr }

/-- What a step adds to the trail of a frame. -/
def trail (f : FrameId) (w : World ε) : Label → Trail → Trail
  | .op (.setIp k ip), t => if k = f then { put := ip } else t
  | .op (.bindRecord k r), t => if k = f then w.hands f (some r) t else t
  | .answered g _ external result, t =>
    if result.isPanic ∧ (w.generator g).frame = f then (w.hands f external t).started else t
  | .entered turn _ external, t =>
    if (w.generator turn.context).frame = f then (w.hands f external t).started else t
  | _, t => t

end World

/-- A rule for programs that move the record of a frame through the frame only. -/
def minds (f : FrameId) (c : Config ε) (l : Label) (_ : Config ε) : Prop :=
  ∀ r, (c.world.frame f).record = some r → (l.writes c.world).places r → (l.writes c.world).pointers f

instance Writes.decidableAsked (w : World ε) (g : GenId) (external : Option RecordId) (r : RecordId) :
    Decidable ((Writes.asking w g external).places r) :=
  inferInstanceAs (Decidable ((w.frame (w.generator g).frame).record = some r ∨ external = some r))

instance Label.decidablePlaces (w : World ε) (l : Label) (r : RecordId) : Decidable ((l.writes w).places r) := by
  induction l using Label.casesOn with
  | op call =>
    induction call using Op.casesOn with
    | setLastInstr s ip => exact inferInstanceAs (Decidable (r = s))
    | setIp f ip => exact inferInstanceAs (Decidable ((w.frame f).record = some r))
    | _ => exact .isFalse id
  | answered g inj external result =>
    induction result using Resumption.casesOn with
    | panicked p => exact Writes.decidableAsked w g external r
    | _ => exact .isFalse id
  | entered t inj external => exact Writes.decidableAsked w t.context external r
  | _ => exact .isFalse id

instance Label.decidablePointers (w : World ε) (l : Label) (f : FrameId) : Decidable ((l.writes w).pointers f) := by
  induction l using Label.casesOn with
  | op call =>
    induction call using Op.casesOn with
    | setIp k ip => exact inferInstanceAs (Decidable (f = k))
    | _ => exact .isFalse id
  | answered g inj external result =>
    induction result using Resumption.casesOn with
    | panicked p => exact inferInstanceAs (Decidable (f = (w.generator g).frame))
    | _ => exact .isFalse id
  | entered t inj external => exact inferInstanceAs (Decidable (f = (w.generator t.context).frame))
  | _ => exact .isFalse id

instance minds.decidable (f : FrameId) (c : Config ε) (l : Label) (d : Config ε) : Decidable (minds f c l d) :=
  match own : (c.world.frame f).record with
  | none => .isTrue fun r bound => by rw [own] at bound; cases bound
  | some s =>
    decidable_of_iff ((l.writes c.world).places s → (l.writes c.world).pointers f) <| by
      refine ⟨fun only r bound => ?_, fun minds => minds s own⟩
      rw [own] at bound
      cases bound
      exact only

/-! ## Positions after a change -/

namespace World

variable {w v : World ε} {f : FrameId} {r : RecordId} {g : GenId} {out : Multiset Handle}

theorem lastInstr_of_record (own : (w.frame f).record = some r) : w.lastInstr f = (w.record r).lastInstr := by
  rw [lastInstr, own]

theorem lastInstr_of_compact (compact : (w.frame f).record = none) : w.lastInstr f = (w.frame f).ip := by
  rw [lastInstr, compact]

theorem lastInstr_congr (frames : v.frames = w.frames) (records : v.records = w.records) :
    v.lastInstr f = w.lastInstr f := by
  simp only [lastInstr, frame, record, frames, records]

theorem lastInstr_setState (r : RecordId) (s : RecordState) : (w.setState r s).lastInstr f = w.lastInstr f := by
  have frames : (w.setState r s).frame f = w.frame f := rfl
  unfold lastInstr
  rw [frames]
  split
  · exact record_modifyRecord Record.lastInstr w r _ _ fun _ => rfl
  · rfl

theorem lastInstr_setIp (acc : Accounted w out) (has : w.Has (.frame f)) (ip : Int) :
    (w.setIp f ip).lastInstr f = ip := by
  have moved := frame_modified has fun x => { x with ip := ip }
  cases own : (w.frame f).record with
  | none =>
    have compact : ((w.modifyFrame f fun x => { x with ip := ip }).frame f).record = none := by
      rw [moved]
      exact own
    have same : w.setIp f ip = w.modifyFrame f fun x => { x with ip := ip } := by simp only [setIp, compact]
    rw [same, lastInstr_of_compact compact, moved]
  | some r =>
    have kept : ((w.modifyFrame f fun x => { x with ip := ip }).frame f).record = some r := by
      rw [moved]
      exact own
    have there : (w.modifyFrame f fun x => { x with ip := ip }).Has (.record r) := acc.has_bound own
    rw [setIp_of_record own,
      lastInstr_of_record (w := (w.modifyFrame f fun x => { x with ip := ip }).setLastInstr r ip) kept,
      setLastInstr, record_modified there]

theorem lastInstr_bindRecord {t : Trail} (acc : Accounted w (.record r ::ₘ out)) (has : w.Has (.frame f))
    (there : (w.bindRecord f r).2.Has (.frame f)) (before : w.lastInstr f = t.place) :
    (w.bindRecord f r).2.lastInstr f = (w.hands f (some r) t).place := by
  unfold bindRecord at there ⊢
  simp only [hands]
  split
  · next full =>
    rw [if_pos full] at there
    have acc' := ((Moves.dropOne w (.record r) : Moves {} w _ _ out).accounted acc).1
    rw [← before]
    exact (Keeps.drop (W := {}) w _).lastInstr_eq acc acc' (lt_next_of_frame has) there id id fun _ _ => id
  · have bound := frame_modified has fun x => { x with record := some r }
    exact lastInstr_of_record (by rw [bound])

/-- A record that is built for a frame takes over the position of the frame. -/
theorem lastInstr_materialize (x : Record) (has : w.Has (.frame f)) :
    (w.materialize (.building x) f).2.lastInstr f = w.lastInstr f := by
  simp only [materialize, Host.building]
  split
  · rfl
  · rfl
  · next b compact builder =>
    have built : (w.addRecord { x with lastInstr := (w.frame f).ip }).2.record w.records.next =
        { x with lastInstr := (w.frame f).ip } := record_of_get? (Store.get?_insert_next ..)
    have furnished : ∀ e, ((((w.addRecord { x with lastInstr := (w.frame f).ip }).2.emit e).modifyFrame f
        fun y => { y with record := some w.records.next }).lastInstr f) = (w.frame f).ip := by
      intro e
      have bound := frame_modified (w := (w.addRecord { x with lastInstr := (w.frame f).ip }).2.emit e) has
        fun y => { y with record := some w.records.next }
      rw [lastInstr_of_record (congrArg Frame.record bound)]
      exact congrArg Record.lastInstr built
    rw [lastInstr_of_compact compact]
    exact furnished _

/-- A body takes over at its position, or at its first instruction. -/
theorem lastInstr_begin (acc : Accounted w out) (has : w.Has (.generator g)) (throwing : Bool) :
    (w.begin g throwing).lastInstr (w.generator g).frame =
      if w.lastInstr (w.generator g).frame < 0 then 0 else w.lastInstr (w.generator g).frame := by
  have placed : (if w.lastInstr (w.generator g).frame < 0 then w.setIp (w.generator g).frame 0 else w).lastInstr
      (w.generator g).frame =
        if w.lastInstr (w.generator g).frame < 0 then 0 else w.lastInstr (w.generator g).frame := by
    split
    · exact lastInstr_setIp acc (acc.has_frame has) 0
    · rfl
  rw [← placed]
  simp only [begin]
  generalize (if w.lastInstr (w.generator g).frame < 0 then w.setIp (w.generator g).frame 0 else w) = v
  cases backing : (w.generator g).backing with
  | compiled state n => exact lastInstr_congr rfl rfl
  | interpreted live =>
    cases live with
    | none => exact lastInstr_congr rfl rfl
    | some r => exact (lastInstr_congr (w := v.setState r .executing) rfl rfl).trans (lastInstr_setState r .executing)

/-- Where a body starts: at the position of its frame, or of the record that its compact frame is handed. -/
theorem lastInstr_prepared {inj : Injection} {external : Option RecordId} {t : Trail}
    (acc : Accounted w (↑(inj.offered external) + out)) (owned : .generator g ∈ out)
    (before : w.lastInstr (w.generator g).frame = t.place) :
    (w.prepared g inj external).lastInstr (w.generator g).frame =
      (w.hands (w.generator g).frame external t).started.place := by
  obtain ⟨acc', there, same⟩ := accounted_takeBody acc owned
  have has := acc.has_frame (acc.has (Multiset.mem_add.mpr (.inr owned)))
  rw [inj.offered_add] at acc
  have handed : (w.takeBody g external).lastInstr (w.generator g).frame =
      (w.hands (w.generator g).frame external t).place := by
    cases external with
    | none => exact before
    | some r =>
      have still : ((w.modifyGenerator g fun x => { x with body := none }).generator g).frame =
          (w.generator g).frame := generator_modifyGenerator Generator.frame w g g _ fun _ => rfl
      have frame := acc'.has_frame there
      rw [same] at frame
      simp only [takeBody, still] at frame ⊢
      have taken : Moves (.request g) w (.record r ::ₘ (↑inj.held + out))
          (w.modifyGenerator g fun x => { x with body := none }) (.record r ::ₘ (↑inj.held + out)) :=
        .editGenerator g _ (fun _ => rfl) (fun _ => rfl) (fun _ => rfl) (fun _ _ => rfl) (.inl rfl)
      have acc : Accounted w (.record r ::ₘ (↑inj.held + out)) := by simpa using acc
      exact lastInstr_bindRecord (taken.accounted acc).1 has frame before
  have begun := lastInstr_begin acc' there inj.isThrowing
  rw [same, handed] at begun
  rw [begun, Trail.place_started]

end World

/-! ## Steps -/

/-- The trail says where the frame is. -/
structure Config.Trailed (c : Config ε) (f : FrameId) (t : Trail) : Prop where
  place : c.world.Has (.frame f) → (c.world.frame f).owner = .compiled → c.world.lastInstr f = t.place
  unborn : c.world.frames.next ≤ f → t = {}

/-- The step moves the frame or gives it a record. -/
def Label.Touches (w : World ε) (f : FrameId) (l : Label) : Prop := (l.writes w).pointers f ∨ (l.writes w).bound f

theorem World.trail_of_untouched {w : World ε} {f : FrameId} {l : Label} (untouched : ¬ l.Touches w f) (t : Trail) :
    w.trail f l t = t := by
  unfold Label.Touches at untouched
  push Not at untouched
  obtain ⟨pointer, bound⟩ := untouched
  cases l with
  | op call =>
    cases call with
    | setIp k ip => exact if_neg fun here => pointer here.symm
    | bindRecord k r => exact if_neg fun here => bound here.symm
    | _ => rfl
  | answered g inj external result =>
    refine if_neg fun ⟨panics, here⟩ => ?_
    cases result with
    | panicked p => exact pointer here.symm
    | _ => cases panics
  | entered turn inj external => exact if_neg fun here => pointer here.symm
  | _ => rfl

namespace Step

variable {c d : Config ε} {l : Label} {f : FrameId} {t : Trail}

theorem has_touched (sound : c.Sound) (step : Step c l d) (touched : l.Touches c.world f) : c.world.Has (.frame f) := by
  cases l with
  | op call =>
    cases step with
    | op _ named =>
      cases call with
      | setIp k ip => exact touched.elim (fun here => here ▸ named _ (by simp [Op.names])) False.elim
      | materialize k x => exact touched.elim False.elim fun here => here ▸ named _ (by simp [Op.names])
      | bindRecord k r => exact touched.elim False.elim fun here => here ▸ named _ (by simp [Op.names])
      | _ => exact (touched.elim id id).elim
  | answered g inj external result =>
    have frame := sound.accounted.has_frame (step.has_asked sound).1
    cases result with
    | panicked p =>
      have here : f = (c.world.generator g).frame := touched.elim id id
      exact here ▸ frame
    | _ => exact (touched.elim id id).elim
  | entered turn inj external =>
    have here : f = (c.world.generator turn.context).frame := touched.elim id id
    exact here ▸ sound.accounted.has_frame (step.has_entered sound).1
  | _ => exact (touched.elim id id).elim

/-- The begin of a turn on the frame, whether or not the frame can be pushed. -/
theorem prepared_trail {g : GenId} {inj : Injection} {external : Option RecordId} {W : Writes}
    {out rest : Multiset Handle} (acc : Accounted c.world (↑(inj.offered external) + out))
    (owned : .generator g ∈ out) (acc' : Accounted d.world rest)
    (has : d.world.Has (.frame (c.world.generator g).frame))
    (before : c.world.lastInstr (c.world.generator g).frame = t.place)
    (keeps : Keeps W (c.world.prepared g inj external) d.world)
    (pointers : ∀ k, ¬ W.pointers k) (bound : ∀ k, ¬ W.bound k) (places : ∀ r, ¬ W.places r) :
    d.world.lastInstr (c.world.generator g).frame =
      (c.world.hands (c.world.generator g).frame external t).started.place := by
  have moves : Moves (.request g) c.world _ _ _ := .prepare inj (.request c.world g external) acc owned
  have prepared := (moves.accounted acc).1
  have there := prepared.has_frame (prepared.has (Multiset.mem_add.mpr (.inr owned)))
  have same := (moves.steady.context id (prepared.has (Multiset.mem_add.mpr (.inr owned)))).frame
  rw [same] at there
  rw [keeps.lastInstr_eq prepared acc' (World.lt_next_of_frame there) has (pointers _) (bound _) fun r _ => places r]
  exact World.lastInstr_prepared acc owned before

theorem touched_trail (sound : c.Sound) (step : Step c l d) (touched : l.Touches c.world f)
    (before : c.world.lastInstr f = t.place) (has : d.world.Has (.frame f)) :
    d.world.lastInstr f = (c.world.trail f l t).place := by
  have there := step.has_touched sound touched
  have acc' := (step.sound sound).accounted
  cases l with
  | op call =>
    cases step with
    | op _ named fits takes =>
      cases call with
      | setIp k ip =>
        have here : f = k := touched.elim id False.elim
        subst here
        rw [World.trail, if_pos rfl]
        exact World.lastInstr_setIp sound.accounted there ip
      | materialize k x =>
        have here : f = k := touched.elim False.elim id
        subst here
        exact (World.lastInstr_materialize x there).trans before
      | bindRecord k r =>
        have here : f = k := touched.elim False.elim id
        subst here
        have acc := sound.accounted
        rw [Config.outside, takes] at acc
        rw [World.trail, if_pos rfl]
        exact World.lastInstr_bindRecord (by simpa [Op.takes, Multiset.singleton_add] using acc) there has before
      | _ => exact (touched.elim id id).elim
  | answered g inj external result =>
    obtain ⟨out, owned, acc⟩ := step.accounted_of_answered sound
    cases result with
    | panicked p =>
      have here : f = (c.world.generator g).frame := touched.elim id id
      subst here
      rw [World.trail, if_pos ⟨rfl, rfl⟩]
      rcases step.answered_keeps sound with ⟨calm, -⟩ | ⟨-, keeps⟩
      · cases calm
      · exact prepared_trail acc owned acc' has before keeps (fun _ => id) (fun _ => id) fun _ => id
    | _ => exact (touched.elim id id).elim
  | entered turn inj external =>
    obtain ⟨out, owned, acc⟩ := step.accounted_of_entered sound
    have here : f = (c.world.generator turn.context).frame := touched.elim id id
    subst here
    rw [World.trail, if_pos rfl]
    exact prepared_trail acc owned acc' has before (step.entered_keeps sound) (fun _ => id) (fun _ => id) fun _ => id
  | _ => exact (touched.elim id id).elim

theorem trailed (sound : c.Sound) (trailed : c.Trailed f t) (step : Step c l d) (minds : minds f c l d) :
    d.Trailed f (c.world.trail f l t) where
  place has compiled := by
    have keeps := step.keeps sound
    by_cases given : f < c.world.frames.next
    · obtain ⟨y, found⟩ := Option.isSome_iff_exists.mp has
      obtain ⟨x, there, -⟩ := keeps.frames.old given found
      have before := trailed.place (Option.isSome_iff_exists.mpr ⟨x, there⟩)
        ((keeps.frame given has).owner.symm.trans compiled)
      by_cases touched : l.Touches c.world f
      · exact step.touched_trail sound touched before has
      · rw [World.trail_of_untouched touched, ← before]
        have pointer : ¬ (l.writes c.world).pointers f := fun moved => touched (.inl moved)
        refine keeps.lastInstr_eq sound.accounted (step.sound sound).accounted given has pointer
          (fun bound => touched (.inr bound)) fun r own written => pointer (minds r own written)
    · have untouched : ¬ l.Touches c.world f := fun touched =>
        given (World.lt_next_of_frame (step.has_touched sound touched))
      have fresh := keeps.newFrame (Nat.not_lt.mp given) has
      rw [World.trail_of_untouched untouched, trailed.unborn (Nat.not_lt.mp given)]
      have compact := (fresh.record compiled).resolve_left fun bound => untouched (.inr bound)
      rw [World.lastInstr_of_compact compact]
      exact (fresh.pointer compiled).resolve_left fun moved => untouched (.inl moved)
  unborn late := by
    have late' := (step.keeps sound).frames.next_le.trans late
    have untouched : ¬ l.Touches c.world f := fun touched =>
      Nat.not_lt.mpr late' (World.lt_next_of_frame (step.has_touched sound touched))
    rw [World.trail_of_untouched untouched]
    exact trailed.unborn late'

end Step

theorem Noted.trailed {host : ε} {f : FrameId} {ls : List Label} {c : Config ε} {t : Trail}
    (run : Noted (minds f) (World.trail f) (Config.start host) {} ls c t) : c.Trailed f t := by
  induction run with
  | nil =>
    refine ⟨fun has => ?_, fun _ => rfl⟩
    cases has
  | snoc init step kept ih => exact step.trailed (init.run.sound (Config.start_sound host)) ih kept

theorem Trail.place_eq_put_iff (t : Trail) : t.place = t.put ↔ ∀ m, t.handed = some m → m = t.put := by
  unfold Trail.place
  cases t.handed with
  | none => simp
  | some m => simp

/-- A frame for compiled code is where it was put last, unless it was handed a record since: then it is where the record
was. Building a record for it never moves it. A body starts there, at its first instruction at the earliest. -/
theorem position_follows_trail (host : ε) {f : FrameId} {ls : List Label} {c : Config ε} {t : Trail}
    (run : Noted (minds f) (World.trail f) (Config.start host) {} ls c t) (has : c.world.Has (.frame f))
    (compiled : (c.world.frame f).owner = .compiled) :
    c.world.lastInstr f = t.place ∧ c.world.line f = (c.world.frame f).code.lineFor t.place ∧
    (c.world.lastInstr f = t.put ↔ ∀ m, t.handed = some m → m = t.put) ∧
    ∀ (g : GenId) (inj : Injection) (external : Option RecordId) (rest : Multiset Handle) (turn : Turn) (w : World ε),
      c.owned = .generator g ::ₘ ((inj.offered external : Multiset Handle) + rest) → (c.world.generator g).frame = f →
      c.world.receive g inj external = .entered turn w →
      w.lastInstr f = (c.world.hands f external t).started.place := by
  have place := run.trailed.place has compiled
  refine ⟨place, by rw [World.line, place], by rw [place]; exact t.place_eq_put_iff, ?_⟩
  intro g inj external rest turn w takes here received
  have sound := run.run.sound (Config.start_sound host)
  have step := Step.entered takes received
  have context : turn.context = g := by
    have acc := sound.accounted
    rw [c.outside_of_request takes] at acc
    obtain ⟨body, -, turn_eq, -⟩ := World.receive_entered acc (Multiset.mem_cons_self _ _) sound.calm received
    rw [turn_eq]
  have touched : (Label.entered turn inj external).Touches c.world f := .inl (by rw [← here, ← context]; rfl)
  have after := (step.sound sound).accounted.has_frame (step.has_entered sound).2
  have frame := ((step.moves sound).1.steady.context (fun births => births) (step.has_entered sound).2).frame
  rw [frame, context, here] at after
  rw [step.touched_trail sound touched place after, World.trail, if_pos (by rw [context]; exact here)]

/-- A body is put at 7 and yields, and its context is asked to go on with a record whose position is 3: the body starts
at 3. -/
theorem position_follows_trail_handed :
    ∃ (ls : List Label) (c : Config Unit) (t : Trail) (turn : Turn) (w : World Unit),
      Noted (minds 0) (World.trail 0) (Config.start ()) {} ls c t ∧ t = { put := 7 } ∧
      c.world.lastInstr 0 = 7 ∧ c.world.yieldPoint 0 = some 1 ∧
      c.world.receive 0 (.send nothing) (some 0) = .entered turn w ∧ w.lastInstr 0 = 3 := by
  let waits (c : Config Unit) (t : Trail) : Bool :=
    decide (t = { put := 7 }) && decide (c.world.Has (.frame 0)) &&
      decide ((c.world.frame 0).owner = .compiled) && decide (c.world.yieldPoint 0 = some 1) &&
      decide ((c.world.generator 0).frame = 0) &&
      decide (c.world.hands 0 (some 0) t = { put := 7, handed := some 3 }) &&
      decide (.generator 0 ::ₘ ((Injection.send nothing).offered (some 0) : Multiset Handle) ≤ c.owned) &&
      match c.world.receive 0 (.send nothing) (some 0) with
      | .answered _ _ => false
      | .entered _ _ => true
  obtain ⟨ls, c, t, run, holds⟩ := Config.exists_noted (p := waits)
    [.call (.newRecord { code := { module := "m", name := "f" }, lastInstr := 3 }),
      .call (.newCompiled .generator { module := "m", name := "f" } none 0), .call (.clone (.object nothing)),
      .call (.clone (.object nothing)), .ask 0 (.send nothing) none, .call (.setIp 0 7), .stop (.yields nothing)]
    (by decide +kernel : (Config.noteAll? (minds 0) (World.trail 0) (Config.start ()) {} _).any _ = true)
  simp only [waits, Bool.and_eq_true, decide_eq_true_eq] at holds
  obtain ⟨⟨⟨⟨⟨⟨⟨trail, has⟩, compiled⟩, waits⟩, here⟩, handed⟩, enough⟩, entered⟩ := holds
  obtain ⟨rest, owned⟩ := Multiset.le_iff_exists_add.mp enough
  obtain ⟨place, -, -, starts⟩ := position_follows_trail () run has compiled
  cases received : c.world.receive 0 (.send nothing) (some 0) with
  | answered result w =>
    rw [received] at entered
    cases entered
  | entered turn w =>
    refine ⟨ls, c, t, turn, w, run, trail, by rw [place, trail]; rfl, waits, received, ?_⟩
    rw [starts 0 (.send nothing) (some 0) rest turn w (by rw [owned, Multiset.cons_add]) here received, handed]
    rfl

/-- A frame is put at 5, in the second of its lines, and handed a record that has not begun: the frame is at its
definition again. -/
theorem handed_record_moves_frame :
    ∃ (ls : List Label) (c : Config Unit) (t : Trail),
      Noted (minds 0) (World.trail 0) (Config.start ()) {} ls c t ∧ c.world.Has (.frame 0) ∧
      (c.world.frame 0).owner = .compiled ∧ t.put = 5 ∧ c.world.lastInstr 0 = -1 ∧
      (c.world.frame 0).code.lineFor 5 = some 12 ∧ c.world.line 0 = some 10 := by
  let code : Code := { module := "m", name := "f", firstLine := 10, lines := [⟨0, 11⟩, ⟨4, 12⟩] }
  let moved (c : Config Unit) (t : Trail) : Bool :=
    decide (c.world.Has (.frame 0)) && decide ((c.world.frame 0).owner = .compiled) && decide (t.put = 5) &&
      decide (c.world.lastInstr 0 = -1) && decide ((c.world.frame 0).code.lineFor 5 = some 12) &&
      decide (c.world.line 0 = some 10)
  obtain ⟨ls, c, t, run, holds⟩ := Config.exists_noted (p := moved)
    [.call (.newRecord { code := code }), .call (.newFrame code none), .call (.setIp 0 5),
      .call (.bindRecord 0 0)]
    (by decide +kernel : (Config.noteAll? (minds 0) (World.trail 0) (Config.start ()) {} _).any _ = true)
  simp only [moved, Bool.and_eq_true, decide_eq_true_eq] at holds
  obtain ⟨⟨⟨⟨⟨has, compiled⟩, put⟩, place⟩, second⟩, line⟩ := holds
  exact ⟨ls, c, t, run, has, compiled, put, place, second, line⟩

end Activation
