import Activation.Proofs.Awaiters
import Activation.Proofs.Lifecycle.Bodies
import Activation.Proofs.Lifecycle.Losses
import Activation.Proofs.Lifecycle.Rewinding

/-! # Refusals

Three things can be wrong with a request: the context is executing, it has nothing left to give, or it cannot take a
value yet. Which of them it is can be told from outside, and a refusal changes nothing but the counts of what the
request brought along.

* `onward`: a rule for programs that keep the records of contexts private and set no position back to the start.
* `Config.Poised`: the record of a context that stands at the start is as it was made.
* `World.Untouched`: nothing about a context has changed, nor the stack.
* `World.verdict_executing`, `World.verdict_exhausted`, `World.verdict_valued`: what each refusal is about.
* `World.resume_of_refuse`, `World.resume_refused_iff`: what becomes of a refused request.
* `refusals_exact`: every request of such a program.
-/

namespace Activation
set_option autoImplicit false

variable {ε : Type}

/-! ## Programs that do not rewind -/

/-- The frame of an interpreted context that has not finished. -/
def World.Seats (w : World ε) (f : FrameId) : Prop :=
  ∃ g, (w.generator g).frame = f ∧ (w.generator g).live.isSome

def Op.Onward (c : Config ε) : Op → Prop
  | .setIp f ip => c.world.Seats f → ip ≠ -1
  | op => op.Lawful c

def Label.Onward (c : Config ε) : Label → Prop
  | .op call => call.Onward c
  | .strayed _ _ _ => True
  | l => l.Lawful c

/-- A rule for programs that keep the records of contexts private and set no position back to the start. -/
def onward (c : Config ε) (l : Label) : Prop := l.Onward c

instance World.decidableSeats (w : World ε) (f : FrameId) : Decidable (w.Seats f) :=
  decidable_of_iff (∃ g, g < w.generators.next ∧ (w.generator g).frame = f ∧ (w.generator g).live.isSome) <| by
    refine ⟨fun ⟨g, _, seat⟩ => ⟨g, seat⟩, fun ⟨g, place, live⟩ => ⟨g, ?_, place, live⟩⟩
    by_contra late
    rw [World.live_of_late late] at live
    cases live

instance Op.decidableOnward (c : Config ε) (op : Op) : Decidable (op.Onward c) := by
  have lawful := op.decidableLawful c
  induction op using Op.casesOn with
  | setIp f ip => exact inferInstanceAs (Decidable (c.world.Seats f → ip ≠ -1))
  | _ => exact lawful

instance onward.decidable (c : Config ε) (l : Label) : Decidable (onward c l) := by
  have lawful := l.decidableLawful c
  induction l using Label.casesOn with
  | op call => exact inferInstanceAs (Decidable (call.Onward c))
  | strayed t ending result => exact .isTrue trivial
  | _ => exact lawful

/-- A step of such a program that is not lawful sets a position or strays. -/
theorem Label.Onward.cases {c : Config ε} {l : Label} (onward : l.Onward c) :
    l.Lawful c ∨ (∃ f ip, l = .op (.setIp f ip)) ∨ ∃ t ending result, l = .strayed t ending result := by
  cases l with
  | op call =>
    cases call with
    | setIp f ip => exact .inr (.inl ⟨f, ip, rfl⟩)
    | _ => exact .inl onward
  | strayed t ending result => exact .inr (.inr ⟨t, ending, result, rfl⟩)
  | _ => exact .inl onward

theorem Label.Onward.unwritten {c : Config ε} {l : Label} (onward : l.Onward c) : unwritten c l := by
  cases l with
  | op call =>
    cases call with
    | clear r => exact onward
    | setState r s => exact onward
    | _ => trivial
  | _ => trivial

/-! ## Contexts at the start -/

/-- The record of a context that stands at the start is as it was made. -/
def Config.Poised (c : Config ε) : Prop :=
  ∀ g r, (c.world.generator g).live = some r → (c.world.record r).lastInstr = -1 → (c.world.record r).state = .created

theorem Config.Poised.rested {c : Config ε} {g : GenId} (poised : c.Poised)
    (started : c.world.isJustStarted g = true) :
    c.world.isExecuting g = false ∧ c.world.isCompleted g = false := by
  cases backing : (c.world.generator g).backing with
  | compiled state n =>
    rw [World.isJustStarted, backing, decide_eq_true_eq] at started
    simp [World.isExecuting, World.isCompleted, backing, started]
  | interpreted live =>
    cases live with
    | none =>
      rw [World.isJustStarted, backing] at started
      cases started
    | some r =>
      have live : (c.world.generator g).live = some r := by rw [Generator.live, backing]
      rw [World.isJustStarted_of_live live, decide_eq_true_eq] at started
      rw [World.isExecuting_of_live live, World.isCompleted_of_live live, poised g r live started]
      exact ⟨rfl, rfl⟩

namespace Step

variable {c d : Config ε} {l : Label} {g : GenId} {r : RecordId}

/-- Nobody puts the record of another context back to the start. -/
theorem poised_bystander (sound : c.Sound) (priv : c.world.Private) (poised : c.Poised) (step : Step c l d)
    (onward : l.Onward c) (other : ¬ (l.footprint c.world).contexts g) (live : (c.world.generator g).live = some r)
    (live' : (d.world.generator g).live = some r) (start : (d.world.record r).lastInstr = -1) :
    (d.world.record r).state = .created := by
  obtain ⟨x, found⟩ := Option.isSome_iff_exists.mp (sound.accounted.has_record live)
  have kept : ¬ (l.footprint c.world).records r → (d.world.record r).state = .created := by
    intro free
    obtain ⟨state, place⟩ := (step.moves sound).1.steady.record_eq free (c.world.records.lt_next found)
      ((step.sound sound).accounted.has_record live')
    exact state.trans (poised g r live (place.mp start))
  rcases onward.cases with lawful | ⟨f, ip, rfl⟩ | ⟨t, ending, result, rfl⟩
  · exact kept (step.records_free sound priv lawful live other)
  · by_cases bound : (c.world.frame f).record = some r
    · have seats : c.world.Seats f := ⟨g, (priv.only live bound).symm, by rw [live]; rfl⟩
      have moved : d.world = c.world.setIp f ip := by
        cases step
        rfl
      rw [moved, World.record_setIp bound (sound.accounted.has_record live)] at start
      exact absurd start (onward seats)
    · exact kept fun records => bound records.1
  · exact kept id

/-- A turn leaves the start behind, and a body that yields has not gone back. -/
theorem poised_subject (sound : c.Sound) (busy : c.Busy) (priv : c.world.Private) (poised : c.Poised)
    (step : Step c l d) (subject : (l.footprint c.world).contexts g) (live : (c.world.generator g).live = some r)
    (live' : (d.world.generator g).live = some r) (start : (d.world.record r).lastInstr = -1) :
    (d.world.record r).state = .created := by
  have backing := World.backing_of_live live
  have acc' := (step.sound sound).accounted
  obtain ⟨x, found⟩ := Option.isSome_iff_exists.mp (sound.accounted.has_record live)
  have kept : Steady {} c.world d.world → (d.world.record r).state = .created := by
    intro steady
    obtain ⟨state, place⟩ := steady.record_eq id (c.world.records.lt_next found) (acc'.has_record live')
    exact state.trans (poised g r live (place.mp start))
  have gone : ∀ {s : Status}, d.world.status g = s.closed → (d.world.record r).state = .created := by
    intro s status
    rw [(World.Done.of_closed status).live] at live'
    cases live'
  cases l with
  | op call => exact (call.not_contexts _ _ subject).elim
  | answered k inj external result =>
    have own : g = k := subject
    subst own
    cases step.reply sound with
    | refused _ steady => exact kept steady
    | ignored _ steady => exact kept steady
    | finished _ status => exact gone status
    | stuck _ _ status => exact gone status
  | entered t inj external =>
    have own : g = t.context := subject
    subst own
    exact absurd start (step.entered_record sound backing (priv.own live)).2
  | ended t ending result =>
    have own : g = t.context := subject
    subst own
    cases yields : ending.isYield with
    | true =>
      -- the body was running, so its record did not stand at the start
      have executing := step.ended_executing sound busy
      have before := (step.ended_record sound yields backing).2.mp start
      rw [World.isExecuting_of_live live, poised _ r live before] at executing
      cases executing
    | false =>
      have done := (step.completes sound (l := .ended t ending result) ⟨rfl, yields⟩).2.2
      rw [done.live] at live'
      cases live'
  | _ => exact subject.elim

theorem poised_born (sound : c.Sound) (step : Step c l d) (onward : l.Onward c) (late : c.world.generators.next ≤ g)
    (live : (d.world.generator g).live = some r) : (d.world.record r).state = .created := by
  have has := World.has_of_live live
  have lawful : l.Lawful c := by
    rcases step.newborn sound late has with ⟨_, _, _, _, rfl, -⟩ | ⟨_, _, _, rfl, -⟩
    · exact onward
    · exact onward
  have shows : d.world.Shows g 0 .fresh := (step.born sound lawful late has).shows
  unfold Generator.live at live
  cases shows with
  | compiled backing =>
    rw [backing] at live
    cases live
  | live backing state =>
    rw [backing] at live
    cases live
    exact (Option.some.inj state).symm

theorem poised (sound : c.Sound) (busy : c.Busy) (priv : c.world.Private) (poised : c.Poised) (step : Step c l d)
    (onward : l.Onward c) : d.Poised := by
  intro g r live start
  by_cases given : g < c.world.generators.next
  · by_cases subject : (l.footprint c.world).contexts g
    · have unborn : ¬ (l.footprint c.world).births := by
        cases l with
        | op call => exact (call.not_contexts _ _ subject).elim
        | _ => exact id
      exact step.poised_subject sound busy priv poised subject ((step.moves sound).1.steady.live unborn live) live start
    · have status := step.status_eq sound subject given (World.has_of_live live)
      have before : (c.world.generator g).live = some r := (World.live_congr status).symm.trans live
      exact step.poised_bystander sound priv poised onward subject before live start
  · exact step.poised_born sound onward (Nat.not_lt.mp given) live

end Step

structure Config.Steered (c : Config ε) : Prop where
  sound : c.Sound
  orderly : c.Orderly
  busy : c.Busy
  priv : c.world.Private
  poised : c.Poised

theorem Kept.steered {c : Config ε} {ls : List Label} {host : ε} (kept : Kept onward (Config.start host) ls c) :
    c.Steered := by
  induction kept with
  | nil =>
    refine ⟨Config.start_sound host, Config.start_orderly host, Config.start_busy host, (Config.start_lively host).priv,
      fun g r live => ?_⟩
    cases live
  | snoc _ step rule ih =>
    exact ⟨step.sound ih.sound, step.orderly ih.sound ih.orderly,
      step.busy ih.sound ih.orderly ih.busy (Label.Onward.unwritten rule),
      step.priv_of_cases ih.sound ih.priv (Label.Onward.cases rule),
      step.poised ih.sound ih.busy ih.priv ih.poised rule⟩

/-! ## What a refusal leaves alone -/

/-- Nothing about a context has changed, nor has the stack. -/
structure World.Untouched (w v : World ε) (g : GenId) : Prop where
  /-- The kind, the frame, the backing, the body and the count of yields. -/
  context : v.status g = w.status g
  state : v.stateOf g = w.stateOf g
  yieldPoint : v.yieldPoint g = w.yieldPoint g
  awaiter : (v.generator g).awaiter = (w.generator g).awaiter
  record : (v.frame (w.generator g).frame).record = (w.frame (w.generator g).frame).record
  pointer : (v.frame (w.generator g).frame).ip = (w.frame (w.generator g).frame).ip
  position : v.lastInstr (w.generator g).frame = w.lastInstr (w.generator g).frame
  stack : w.SameStack v

namespace World

variable {w v : World ε} {g : GenId} {out : Multiset Handle}

theorem stateOf_congr (status : v.status g = w.status g)
    (record : ∀ r, (w.generator g).live = some r →
      (v.record r).state = (w.record r).state ∧ (v.record r).lastInstr = (w.record r).lastInstr) :
    v.stateOf g = w.stateOf g := by
  have same : (v.generator g).backing = (w.generator g).backing := congrArg Status.backing status
  have completed := (readings_congr status fun r live => (record r live).1).2
  cases backing : (w.generator g).backing with
  | compiled state n => simp only [stateOf, same, backing]
  | interpreted live =>
    have started : v.isJustStarted g = w.isJustStarted g := by
      unfold isJustStarted
      rw [same, backing]
      cases live with
      | none => rfl
      | some r =>
        obtain ⟨-, place⟩ := record r (by rw [Generator.live, backing])
        simp only [Option.any_some, place]
    simp only [stateOf, same, backing, completed, started]

theorem untouched_drop {hs : List Handle} {fs : List FrameId} (acc : Accounted w (↑hs + out))
    (owned : .generator g ∈ out) (tracks : w.Tracks fs) : w.Untouched (w.drop hs) g := by
  have acc' : Accounted (w.drop hs) out := ((Moves.drop (F := .calm) w hs).accounted acc).1
  have before : w.Has (.generator g) := acc.has (Multiset.mem_add.mpr (.inr owned))
  have after : (w.drop hs).Has (.generator g) := acc'.has owned
  have keeps : Keeps {} w (w.drop hs) := .drop w hs
  have status := status_drop after
  have backing : ((w.drop hs).generator g).backing = (w.generator g).backing := congrArg Status.backing status
  have seat : (w.drop hs).Has (.frame (w.generator g).frame) := by
    have place : ((w.drop hs).generator g).frame = (w.generator g).frame := congrArg Status.frame status
    rw [← place]
    exact acc'.has_frame after
  have given := lt_next_of_frame (acc.has_frame before)
  have frame := keeps.frame given seat
  have record : ∀ r, (w.generator g).live = some r →
      ((w.drop hs).record r).state = (w.record r).state ∧
        ((w.drop hs).record r).lastInstr = (w.record r).lastInstr := by
    intro r live
    have live' : ((w.drop hs).generator g).live = some r := (live_congr status).trans live
    obtain ⟨x, found⟩ := Option.isSome_iff_exists.mp (acc.has_record live)
    have kept := keeps.record (w.records.lt_next found) (acc'.has_record live')
    exact ⟨kept.state.resolve_left id, kept.place.resolve_left id⟩
  constructor
  case context => exact status
  case state => exact stateOf_congr status record
  case yieldPoint =>
    refine yieldPoint_congr backing (congrArg Status.yields status) fun r interpreted => (record r ?_).1
    rw [Generator.live, interpreted]
  case awaiter =>
    obtain ⟨y, here⟩ := Option.isSome_iff_exists.mp after
    have links : SameLinks w (w.drop hs) := (Changes.drop w hs).sameLinks
    obtain ⟨x, there, kept⟩ := links.generators.old (lt_next_of_has before) here
    rw [generator_of_get? there, generator_of_get? here]
    exact kept.awaiter
  case record => exact frame.record.resolve_left id
  case pointer => exact frame.pointer.resolve_left id
  case position => exact keeps.lastInstr_eq acc acc' given seat id id fun _ _ => id
  case stack => exact tracks.sameStack (tracks.kept (steady_drop w hs) id (fun _ => id) acc')

end World

/-! ## What a refusal is about -/

namespace World

variable {w : World ε} {g : GenId} {inj : Injection} {e : GeneratorError}

/-- A context at rest that has not finished has its body, so it does not refuse for want of one. -/
theorem verdict_executing
    (out : (w.generator g).body = none → w.isExecuting g = true ∨ w.isCompleted g = true) :
    w.verdict g inj = .refuse (.alreadyExecuting (w.generator g).kind) ↔ w.isExecuting g = true := by
  have judged := w.judged g inj
  refine ⟨fun verdict => ?_, judged.of_executing⟩
  rw [verdict] at judged
  cases judged with
  | executing executing => exact executing
  | bodiless _ going _ body =>
    rcases out body with executing | completed
    · exact executing
    · rw [completed] at going
      cases going

theorem verdict_exhausted : w.verdict g inj = .refuse (.exhausted (w.generator g).kind) ↔
    w.isCompleted g = true ∧ inj.isClosing = false := by
  have judged := w.judged g inj
  constructor
  · intro verdict
    rw [verdict] at judged
    cases judged with
    | exhausted _ completed calling => exact ⟨completed, calling⟩
  · rintro ⟨completed, calling⟩
    have idle := not_executing_of_completed completed
    generalize w.verdict g inj = verdict at judged ⊢
    cases judged with
    | exhausted => rfl
    | executing executing =>
      rw [idle] at executing
      cases executing
    | ignored _ _ closing =>
      rw [calling] at closing
      cases closing
    | _ _ going =>
      rw [completed] at going
      cases going

theorem verdict_valued
    (young : w.isJustStarted g = true → w.isExecuting g = false ∧ w.isCompleted g = false) :
    w.verdict g inj = .refuse (.nonNoneToJustStarted (w.generator g).kind) ↔
      w.isJustStarted g = true ∧ w.sendsValue inj = true := by
  have judged := w.judged g inj
  constructor
  · intro verdict
    rw [verdict] at judged
    cases judged with
    | valued _ _ fresh sends => exact ⟨fresh, sends⟩
  · rintro ⟨fresh, sends⟩
    obtain ⟨idle, going⟩ := young fresh
    have missing : w.sendsValue inj ≠ false := by
      rw [sends]
      exact Bool.true_eq_false.mp
    generalize w.verdict g inj = verdict at judged ⊢
    cases judged with
    | valued => rfl
    | executing executing =>
      rw [idle] at executing
      cases executing
    | ignored _ completed =>
      rw [going] at completed
      cases completed
    | exhausted _ completed =>
      rw [going] at completed
      cases completed
    | finished _ _ _ closing =>
      cases inj with
      | close => exact absurd rfl missing
      | _ => cases closing
    | bodiless _ _ fits => exact absurd (fits fresh).1 missing
    | entered _ _ fits => exact absurd (fits fresh).1 missing

theorem verdict_refuses (verdict : w.verdict g inj = .refuse e) :
    e = .alreadyExecuting (w.generator g).kind ∨ e = .exhausted (w.generator g).kind ∨
      e = .nonNoneToJustStarted (w.generator g).kind := by
  have judged := w.judged g inj
  rw [verdict] at judged
  cases judged with
  | executing => exact .inl rfl
  | exhausted => exact .inr (.inl rfl)
  | valued => exact .inr (.inr rfl)
  | bodiless => exact .inl rfl

theorem sendsValue_iff : w.sendsValue inj = true ↔ ∃ o, inj = .send o ∧ (w.object o).isNone = false := by
  cases inj <;> simp [sendsValue]

end World

/-! ## Refused requests -/

namespace World

variable {w : World ε} {g : GenId} {inj : Injection} {external : Option RecordId} {e : GeneratorError}
  {out : Multiset Handle}

/-- A refused request gives back all that it brought along. -/
theorem resume_of_refuse (verdict : w.verdict g inj = .refuse e) (acc : Accounted w (↑(inj.offered external) + out))
    (calm : w.fault = none) (program : Host ε) : ∃ hs : List Handle, hs.Perm (inj.offered external) ∧
      w.resume program g inj external = (.refused e, w.drop hs) := by
  have received : ∃ hs : List Handle, hs.Perm (inj.offered external) ∧
      w.receive g inj external = .answered (.refused e) (w.drop hs) := by
    unfold receive
    rw [verdict]
    cases e with
    | nonNoneToJustStarted kind => exact ⟨_, List.perm_append_comm, rfl⟩
    | _ => exact ⟨_, .rfl, rfl⟩
  obtain ⟨hs, all, received⟩ := received
  rw [← Multiset.coe_eq_coe.mpr all] at acc
  refine ⟨hs, all, ?_⟩
  simp only [resume, attempt, received, settlePanic_of_none (acc.fault_drop.trans calm)]

theorem settlePanic_accepts {result : Resumption} (accepted : result.isRefusal = false) (w : World ε) :
    (settlePanic result w).1.isRefusal = false := by
  unfold settlePanic
  split
  · rfl
  · exact accepted

theorem settle_accepts (w : World ε) (g : GenId) (closing : Bool) (ending : Ending) :
    (w.settle g closing ending).1.isRefusal = false := by
  cases ending with
  | yields o =>
    simp only [settle]
    split <;> rfl
  | returns o =>
    simp only [settle]
    split <;> rfl
  | raises e =>
    simp only [settle]
    split
    · rfl
    · split <;> rfl
  | panics p => rfl

theorem conclude_accepts (w : World ε) (t : Turn) (ending : Ending) : (w.conclude t ending).1.isRefusal = false := by
  cases sane : ending.isPanic with
  | true =>
    cases ending with
    | panics p => rfl
    | _ => cases sane
  | false =>
    rw [w.conclude_of_calm t sane]
    split
    · rfl
    · exact settle_accepts _ _ _ _

/-- A request that is not refused at once is not refused later. -/
theorem attempt_accepts (accepts : ∀ e, w.verdict g inj ≠ .refuse e) (program : Host ε) :
    (w.attempt program g inj external).1.isRefusal = false := by
  unfold attempt receive
  cases verdict : w.verdict g inj with
  | refuse e => exact absurd verdict (accepts e)
  | ignore => rfl
  | finish => rfl
  | enter body =>
    simp only
    split
    · next received =>
      split at received
      · cases received
        rfl
      · unfold startTurn at received
        simp only at received
        split at received
        · cases received
          rfl
        · cases received
    · exact conclude_accepts _ _ _

theorem resume_refused_iff (acc : Accounted w (↑(inj.offered external) + out)) (calm : w.fault = none)
    (program : Host ε) :
    (w.resume program g inj external).1 = .refused e ↔ w.verdict g inj = .refuse e := by
  constructor
  · intro refused
    by_contra other
    have accepts : ∀ f, w.verdict g inj ≠ .refuse f := by
      intro f verdict
      obtain ⟨_, -, answer⟩ := resume_of_refuse verdict acc calm program
      rw [answer] at refused
      cases refused
      exact other verdict
    have accepted : (w.resume program g inj external).1.isRefusal = false :=
      settlePanic_accepts (attempt_accepts accepts program) _
    rw [refused] at accepted
    cases accepted
  · intro verdict
    obtain ⟨_, -, answer⟩ := resume_of_refuse verdict acc calm program
    rw [answer]

end World

/-- A request is refused exactly if its context is executing, if it has completed and is not asked to close, or if it is
sent a value before it has begun; and each for its own reason. A refusal gives back what the request brought along, each
handle once, and does nothing else: the context, its frame and the stack are as before, and all counts are right.

This is so as long as no release fails: nobody has overwritten a count, and the destructors of objects that can die only
look on. If giving back the external record panics, in whatever world, the request panics, and a compiled context that
waits at a yield still does, but refuses every request as if it were executing. -/
theorem refusals_exact (host : ε) {ls : List Label} {c : Config ε} {g : GenId} {inj : Injection}
    {external : Option RecordId} {rest : Multiset Handle} {program : Host ε} {result : Resumption} {v : World ε}
    (reached : Course onward (Config.start host) ls c) (mild : ∀ l ∈ ls, l.Mild)
    (takes : c.owned = .generator g ::ₘ ((inj.offered external : Multiset Handle) + rest))
    (answer : c.world.resume program g inj external = (result, v)) :
    (result = .refused (.alreadyExecuting (c.world.generator g).kind) ↔ c.world.isExecuting g = true) ∧
    (result = .refused (.exhausted (c.world.generator g).kind) ↔
      c.world.isCompleted g = true ∧ inj.isClosing = false) ∧
    (result = .refused (.nonNoneToJustStarted (c.world.generator g).kind) ↔
      c.world.isJustStarted g = true ∧ ∃ o, inj = .send o ∧ (c.world.object o).isNone = false) ∧
    (∀ e, result = .refused e →
      (e = .alreadyExecuting (c.world.generator g).kind ∨ e = .exhausted (c.world.generator g).kind ∨
        e = .nonNoneToJustStarted (c.world.generator g).kind) ∧
      c.world.Untouched v g ∧
      (∃ hs : List Handle, hs.Perm (inj.offered external) ∧ v = c.world.drop hs) ∧
      Config.Sound { c with world := v, owned := .generator g ::ₘ rest }) ∧
    ∀ (w : World ε) (k : GenId) (n : Nat) (body : BodyId) (asked : Injection) (r : RecordId),
      (w.generator k).backing = .compiled .running (n + 1) → (w.generator k).body = some body →
      (w.takeBody k (some r)).isUnwinding = true →
      (w.resume program k asked (some r)).1.isPanic = true ∧
      ((w.resume program k asked (some r)).2.Has (.generator k) →
        (w.resume program k asked (some r)).2.Waits k ∧
        ∀ later, (w.resume program k asked (some r)).2.verdict k later =
          .refuse (.alreadyExecuting (w.generator k).kind)) := by
  have reached := reached.kept (Config.start_sound host) mild
  have steered := reached.steered
  have sound := steered.sound
  obtain ⟨has, acc⟩ := sound.of_request takes
  have refused : ∀ {e}, result = .refused e ↔ c.world.verdict g inj = .refuse e := by
    intro e
    rw [← World.resume_refused_iff acc sound.calm program, answer]
  have out : (c.world.generator g).body = none → c.world.isExecuting g = true ∨ c.world.isCompleted g = true :=
    fun body => (steered.busy.out g has body).imp_right fun done => done.isCompleted
  refine ⟨refused.trans (World.verdict_executing out), refused.trans World.verdict_exhausted, ?_,
    fun e failed => ?_, ?_⟩
  · rw [refused, World.verdict_valued steered.poised.rested, World.sendsValue_iff]
  · have verdict := refused.mp failed
    obtain ⟨hs, all, dropped⟩ := World.resume_of_refuse verdict acc sound.calm program
    rw [answer] at dropped
    cases dropped
    rw [← Multiset.coe_eq_coe.mpr all] at acc
    have moves : Moves .calm c.world (↑hs + (.generator g ::ₘ (rest + c.reserved))) (c.world.drop hs) _ :=
      .drop c.world hs
    have tracks := reached.run.tracks (Config.start_sound host) (Config.start_tracks host)
    refine ⟨World.verdict_refuses verdict, World.untouched_drop acc (Multiset.mem_cons_self _ _) tracks,
      ⟨hs, all, rfl⟩, ?_, acc.fault_drop.trans sound.calm, moves.immortal sound.nothing⟩
    have accounted := (moves.accounted acc).1
    rw [← Multiset.cons_add] at accounted
    exact accounted
  · intro w k n body asked r suspended ready fails
    obtain ⟨panics, bereft⟩ := World.resume_bereaves asked suspended ready fails program
    refine ⟨panics, fun has => ⟨?_, fun later => (bereft has).verdict⟩⟩
    obtain ⟨m, still⟩ := (bereft has).suspended
    exact World.waits_of_suspended still

/-- A coroutine that is awaited and has not begun is sent a number, along with a record for its frame. -/
theorem refusals_exact_valued :
    ∃ (ls : List Label) (c : Config Unit), Course onward (Config.start ()) ls c ∧ (∀ l ∈ ls, l.Mild) ∧
      c.world.isJustStarted 0 = true ∧ c.world.contextAwaiter 0 = some 1 ∧ c.world.Has (.object 1) ∧
      c.world.Has (.record 1) ∧
      ∀ (program : Host Unit) (result : Resumption) (v : World Unit),
        c.world.resume program 0 (.send 1) (some 1) = (result, v) →
        result = .refused (.nonNoneToJustStarted .coroutine) ∧ c.world.Untouched v 0 ∧
        ∃ hs : List Handle, hs.Perm [.record 1, .object 1] ∧ v = c.world.drop hs := by
  let code : Code := { module := "m", name := "f" }
  let rest : Multiset Handle := {.generator 1}
  obtain ⟨ls, c, kept, holds⟩ := Config.exists_kept
    (p := fun _ c => decide (c.owned = .generator 0 ::ₘ .record 1 ::ₘ .object 1 ::ₘ rest) &&
      c.world.isJustStarted 0 && decide (c.world.contextAwaiter 0 = some 1) && decide (c.world.Has (.object 1)) &&
      decide (c.world.Has (.record 1)) && decide ((c.world.object 1).isNone = false) &&
      decide ((c.world.generator 0).kind = .coroutine))
    [.call (.newRecord { code }), .call (.newInterpreted .coroutine 0 0), .call (.newCompiled .generator code none 1),
      .call (.setAwaiter 0 (some 1)), .call (.newObject .int (.int 5)), .call (.newRecord { code })]
    (by decide +kernel : (Config.keepAll? onward (Config.start ()) _).any _ = true)
  simp only [Bool.and_eq_true, decide_eq_true_eq] at holds
  obtain ⟨⟨⟨⟨⟨⟨owned, started⟩, awaited⟩, object⟩, record⟩, valued⟩, kind⟩ := holds
  have takes : c.owned = .generator 0 ::ₘ (((Injection.send 1).offered (some 1) : Multiset Handle) + rest) := owned
  obtain ⟨reached, mild⟩ := kept.course (Config.start_sound ())
  refine ⟨ls, c, reached, mild, started, awaited, object, record, fun program result v answer => ?_⟩
  obtain ⟨-, -, sent, effect, -⟩ := refusals_exact () reached mild takes answer
  rw [kind] at sent
  have refused := sent.mpr ⟨started, 1, rfl, valued⟩
  obtain ⟨-, untouched, dropped, -⟩ := effect _ refused
  exact ⟨refused, untouched, dropped⟩

/-- A generator waits at its first yield, and the next request brings along a record that it does not need. The record
has an object in it whose count has been overwritten, so giving it back panics, and the body is lost. The generator is
neither executing nor completed, and refuses the next request as already executing.

Another generator has completed, and is sent an object whose count has been overwritten. The program ends before the
request is refused. -/
theorem refused_without_turn :
    (∃ (ls : List Label) (c d : Config Unit) (l : Label), Course onward (Config.start ()) ls c ∧ c.world.Waits 0 ∧
      Step c l d ∧ l.Ends c.world 0 (.panicked .countOverflow) ∧ d.turns = [] ∧ d.world.Waits 0 ∧
      (d.world.resume (.building .absent) 0 (.send nothing) none).1 = .refused (.alreadyExecuting .generator)) ∧
    ∃ (ls : List Label) (c : Config Unit), Course onward (Config.start ()) ls c ∧ c.world.isCompleted 0 = true ∧
      c.owned = {.generator 0, .object 1, .object 1, .object nothing} ∧
      (c.world.resume (.building .absent) 0 (.send 1) none).2.fault = some (.negative Count.lowest.val) := by
  let code : Code := { module := "m", name := "f" }
  constructor
  · exact Config.exists_bereft
      [.call (.newRecord { code }), .call (.newInterpreted .generator 0 0), .call (.clone (.object nothing)),
        .ask 0 (.send nothing) none, .stop (.yields nothing), .call (.newObject .int (.int 1)),
        .call (.newRecord { code }), .call (.setSlot 1 0 1), .call (.setCount 1 .lowest)]
      .countOverflow (.send nothing) .generator
      (by decide +kernel : (Config.actAll? onward (Config.start ()) _).any _ = true)
  · obtain ⟨ls, c, reached, holds⟩ := Config.exists_course
      (p := fun _ c => c.world.isCompleted 0 &&
        decide (c.owned = {.generator 0, .object 1, .object 1, .object nothing}) &&
        decide ((c.world.resume (.building .absent) 0 (.send 1) none).2.fault = some (.negative Count.lowest.val)))
      [.call (.newCompiled .generator code none 0), .call (.clone (.object nothing)), .ask 0 (.send nothing) none,
        .stop (.returns nothing), .call (.newObject .int (.int 1)), .call (.setCount 1 .lowest),
        .call (.clone (.object 1))]
      (by decide +kernel : (Config.actAll? onward (Config.start ()) _).any _ = true)
    simp only [Bool.and_eq_true, decide_eq_true_eq] at holds
    obtain ⟨⟨completed, owned⟩, ends⟩ := holds
    exact ⟨ls, c, reached, completed, owned, ends⟩

end Activation
