import Activation.Proofs.Lifecycle.Stages

/-! # Private records

The state of an interpreted context is read off its record, so it is only worth something if nobody else writes
to the record.

* `World.Spare`: no context has the record, so anybody may write to it.
* `Label.Lawful`: a step that leaves the records of contexts alone, moves no instruction pointer of an interpreted
  context away from the start or back to it, makes contexts over fresh records that are not shared, and does not
  stray.
* `World.Private`: the record of an interpreted context is on the frame of the context, and nowhere else.
* `Step.records_free`: a lawful step leaves the records of contexts that it is not about alone.
* `Step.entered_record`, `Step.ended_record`: what a turn does to the record of its context.
-/

namespace Activation
set_option autoImplicit false

variable {ε : Type}

/-! ## Lawful steps -/

def World.Spare (w : World ε) (r : RecordId) : Prop := ∀ g, (w.generator g).live ≠ some r

def Op.Lawful (c : Config ε) : Op → Prop
  | .clear r => c.world.Spare r
  | .setState r _ => c.world.Spare r
  | .setLastInstr r _ => c.world.Spare r
  | .newInterpretedFrame r => c.world.Spare r
  | .bindRecord _ r => c.world.Spare r
  | .setIp f ip => ∀ g, (c.world.generator g).frame = f → (c.world.generator g).live.isSome →
      ip ≠ -1 ∧ c.world.isJustStarted g = false
  | .newInterpreted _ r _ => (c.world.record r).state = .created ∧ (c.world.record r).lastInstr = -1 ∧
      (c.world.record r).owners = 1
  | _ => True

def Label.Lawful (c : Config ε) : Label → Prop
  | .op call => call.Lawful c
  | .answered _ _ external _ => ∀ r, external = some r → c.world.Spare r
  | .entered _ _ external => ∀ r, external = some r → c.world.Spare r
  | .strayed _ _ _ => False
  | _ => True

theorem World.live_of_late {w : World ε} {g : GenId} (late : ¬ g < w.generators.next) :
    (w.generator g).live = none := by
  cases found : w.generators.get? g with
  | none => simp [World.generator, found, Generator.absent, Generator.live]
  | some x => exact absurd (w.generators.lt_next found) late

theorem World.backing_of_live {w : World ε} {g : GenId} {r : RecordId} (live : (w.generator g).live = some r) :
    (w.generator g).backing = .interpreted (some r) := by
  unfold Generator.live at live
  cases backing : (w.generator g).backing with
  | compiled state yieldPoint =>
    rw [backing] at live
    cases live
  | interpreted held =>
    rw [backing] at live
    rw [show held = some r from live]

theorem World.isJustStarted_of_live {w : World ε} {g : GenId} {r : RecordId}
    (live : (w.generator g).live = some r) : w.isJustStarted g = decide ((w.record r).lastInstr = -1) := by
  rw [World.isJustStarted, World.backing_of_live live]
  rfl

instance World.decidableSpare (w : World ε) (r : RecordId) : Decidable (w.Spare r) :=
  decidable_of_iff (∀ g < w.generators.next, (w.generator g).live ≠ some r) <| by
    refine ⟨fun all g => ?_, fun all g _ => all g⟩
    by_cases given : g < w.generators.next
    · exact all g given
    · rw [live_of_late given]
      nofun

instance Op.decidableLawful (c : Config ε) : (op : Op) → Decidable (op.Lawful c)
  | .clear r => inferInstanceAs (Decidable (c.world.Spare r))
  | .setState r _ => inferInstanceAs (Decidable (c.world.Spare r))
  | .setLastInstr r _ => inferInstanceAs (Decidable (c.world.Spare r))
  | .newInterpretedFrame r => inferInstanceAs (Decidable (c.world.Spare r))
  | .bindRecord _ r => inferInstanceAs (Decidable (c.world.Spare r))
  | .setIp f ip =>
    decidable_of_iff (∀ g < c.world.generators.next, (c.world.generator g).frame = f →
      (c.world.generator g).live.isSome → ip ≠ -1 ∧ c.world.isJustStarted g = false) <| by
      refine ⟨fun all g place live => ?_, fun all g _ => all g⟩
      by_cases given : g < c.world.generators.next
      · exact all g given place live
      · rw [World.live_of_late given] at live
        cases live
  | .newInterpreted _ r _ => inferInstanceAs (Decidable ((c.world.record r).state = .created ∧
      (c.world.record r).lastInstr = -1 ∧ (c.world.record r).owners = 1))
  | .newObject _ _ | .newImmortal _ _ | .clone _ | .drop _ | .markImmortal _ | .setCount _ _ | .newRecord _
  | .setSlot _ _ _ | .slot _ _ | .newFrame _ _ | .setFrameAwaiter _ _ | .materialize _ _ | .push _ | .pop | .enter _
  | .leave _ | .newCompiled _ _ _ _ | .wrap _ | .setAwaiter _ _ | .findFirstArg _ _ => .isTrue trivial

instance Label.decidableLawful (c : Config ε) : (l : Label) → Decidable (l.Lawful c)
  | .op call => inferInstanceAs (Decidable (call.Lawful c))
  | .answered _ _ external _ => inferInstanceAs (Decidable (∀ r, external = some r → c.world.Spare r))
  | .entered _ _ external => inferInstanceAs (Decidable (∀ r, external = some r → c.world.Spare r))
  | .strayed _ _ _ => .isFalse id
  | .quiet | .ended _ _ _ => .isTrue trivial

/-! ## Records of contexts -/

structure World.Private (w : World ε) : Prop where
  own : ∀ {g r}, (w.generator g).live = some r → (w.frame (w.generator g).frame).record = some r
  only : ∀ {g r f}, (w.generator g).live = some r → (w.frame f).record = some r → f = (w.generator g).frame
  apart : ∀ {g k}, w.Has (.generator g) → w.Has (.generator k) →
    (w.generator g).frame = (w.generator k).frame → g = k

namespace World

variable {w v : World ε}

theorem generator_insert {x : Generator} (generators : v.generators = w.generators.insert x) (g : GenId) :
    v.generator g = if g = w.generators.next then x else w.generator g := by
  simp only [generator, generators, Store.get?_insert]
  split <;> rfl

theorem frame_insert {y : Frame} (frames : v.frames = w.frames.insert y) (f : FrameId) :
    v.frame f = if f = w.frames.next then y else w.frame f := by
  simp only [frame, frames, Store.get?_insert]
  split <;> rfl

end World

theorem World.has_of_live {w : World ε} {g : GenId} {r : RecordId} (live : (w.generator g).live = some r) :
    w.Has (.generator g) := Option.isSome_iff_exists.mpr ⟨_, get?_of_live live⟩

namespace Accounted

variable {w : World ε} {out : Multiset Handle}

/-- A record with one handle, which is outside the world, is on no frame and in no context. -/
theorem sole {r : RecordId} {rest : Multiset Handle} (acc : Accounted w (.record r ::ₘ rest))
    (one : (w.record r).owners = 1) : w.Spare r ∧ ∀ f, (w.frame f).record ≠ some r := by
  have has : w.Has (.record r) := acc.has (Multiset.mem_cons_self _ _)
  obtain ⟨x, found⟩ := Option.isSome_iff_exists.mp has
  have counted : OwnedBy Record.owners x _ := (Store.Counted.of_some found).mp (acc (.record r))
  obtain ⟨owners, -⟩ := counted
  rw [World.record_of_get? found] at one
  -- the one handle that the record counts is outside, so there is none inside
  have none : w.inside (.record r) = 0 := by
    rw [tally_cons] at owners
    simp only [Handle.detached, if_true] at owners
    omega
  refine ⟨fun g live => ?_, fun f bound => ?_⟩
  · have pos : 0 < tally (.record r) (w.generator g).held :=
      tally_pos (k := .record r) (Multiset.mem_coe.mpr (by simp [Generator.held_eq, live]))
    have share := Store.le_weigh (fun x : Generator => tally (.record r) x.held) w.generators g _
      (World.get?_of_live live)
    simp only [World.inside] at none
    omega
  · cases there : w.frames.get? f with
    | none => simp [World.frame, there, Frame.absent] at bound
    | some y =>
      rw [World.frame_of_get? there] at bound
      have pos : 0 < tally (.record r) y.held :=
        tally_pos (k := .record r) (Multiset.mem_coe.mpr (by simp [Frame.held, Frame.heldRecord, bound]))
      have share := Store.le_weigh (fun x : Frame => tally (.record r) x.held) w.frames f y there
      simp only [World.inside] at none
      omega

end Accounted

namespace World.Private

variable {w v : World ε} {out : Multiset Handle}

theorem alone (priv : w.Private) {g k : GenId} {r : RecordId} (first : (w.generator g).live = some r)
    (second : (w.generator k).live = some r) : k = g :=
  priv.apart (has_of_live second) (has_of_live first) (priv.only first (priv.own second))

theorem steady {F : Footprint} (priv : w.Private) (steady : Steady F w v) (unborn : ¬ F.births)
    (acc : Accounted v out) (free : ∀ g r, (w.generator g).live = some r → ¬ F.attached r) : v.Private where
  own {g r} live := by
    have before := steady.live unborn live
    have same := (steady.context unborn (has_of_live live)).frame
    have has := acc.has_frame (has_of_live live)
    rw [same] at has ⊢
    exact steady.record_kept (priv.own before) has
  only {g r f} live bound := by
    have before := steady.live unborn live
    rw [(steady.context unborn (has_of_live live)).frame]
    rcases steady.frame_record bound with earlier | attached
    · exact priv.only before earlier
    · exact absurd attached (free g r before)
  apart {g k} first second eq := by
    rw [(steady.context unborn first).frame, (steady.context unborn second).frame] at eq
    exact priv.apart (steady.has_generator unborn first) (steady.has_generator unborn second) eq

/-- A new context on a new frame, which has the record of the context if there is one. -/
theorem birth {x : Generator} {y : Frame} (priv : w.Private) (acc : Accounted w out)
    (generators : v.generators = w.generators.insert x) (frames : v.frames = w.frames.insert y)
    (place : x.frame = w.frames.next) (same : y.record = x.live)
    (sole : ∀ r, x.live = some r → w.Spare r ∧ ∀ f, (w.frame f).record ≠ some r) : v.Private := by
  have fresh : ∀ g, w.Has (.generator g) → (w.generator g).frame ≠ w.frames.next := fun g has eq => by
    obtain ⟨z, found⟩ := Option.isSome_iff_exists.mp (acc.has_frame has)
    exact absurd (w.frames.lt_next found) (Nat.not_lt.mpr (Nat.le_of_eq eq.symm))
  have old : ∀ g, g ≠ w.generators.next → v.Has (.generator g) → w.Has (.generator g) := fun g other has => by
    simpa only [Has, generators, Store.get?_insert, if_neg other] using has
  refine ⟨fun {g r} live => ?_, fun {g r f} live bound => ?_, fun {g k} first second eq => ?_⟩
  · rw [generator_insert generators] at live ⊢
    by_cases new : g = w.generators.next
    · rw [if_pos new] at live ⊢
      rw [frame_insert frames, if_pos place, same, live]
    · rw [if_neg new] at live ⊢
      rw [frame_insert frames, if_neg (fresh g (has_of_live live))]
      exact priv.own live
  · rw [generator_insert generators] at live ⊢
    rw [frame_insert frames] at bound
    by_cases new : g = w.generators.next
    · rw [if_pos new] at live ⊢
      by_cases here : f = w.frames.next
      · rw [place, here]
      · rw [if_neg here] at bound
        exact absurd bound ((sole r live).2 f)
    · rw [if_neg new] at live ⊢
      by_cases here : f = w.frames.next
      · rw [if_pos here, same] at bound
        exact absurd live ((sole r bound).1 g)
      · rw [if_neg here] at bound
        exact priv.only live bound
  · rw [generator_insert generators, generator_insert generators] at eq
    by_cases newg : g = w.generators.next <;> by_cases newk : k = w.generators.next
    · exact newg.trans newk.symm
    · rw [if_pos newg, if_neg newk, place] at eq
      exact absurd eq.symm (fresh k (old k newk second))
    · rw [if_neg newg, if_pos newk, place] at eq
      exact absurd eq (fresh g (old g newg first))
    · rw [if_neg newg, if_neg newk] at eq
      exact priv.apart (old g newg first) (old k newk second) eq

end World.Private

/-! ## Lawful steps keep records private -/

theorem Label.not_attached {c : Config ε} {l : Label} (acc : Accounted c.world c.outside) (lawful : l.Lawful c)
    (unborn : ¬ (l.footprint c.world).births) {g : GenId} {r : RecordId}
    (live : (c.world.generator g).live = some r) : ¬ (l.footprint c.world).attached r := by
  intro attached
  cases l with
  | op call =>
    cases call with
    | newInterpretedFrame s =>
      cases (attached : r = s)
      exact lawful g live
    | bindRecord f s =>
      cases (attached : r = s)
      exact lawful g live
    | materialize f x =>
      obtain ⟨y, found⟩ := Option.isSome_iff_exists.mp (acc.has_record live)
      exact absurd (c.world.records.lt_next found) (Nat.not_lt.mpr (Nat.le_of_eq (Eq.symm attached)))
    | newInterpreted kind s body => exact unborn trivial
    | _ => exact attached
  | answered k inj external result => exact lawful r attached g live
  | entered t inj external => exact lawful r attached g live
  | _ => exact attached

namespace Step

variable {c d : Config ε} {l : Label}

theorem priv (sound : c.Sound) (priv : c.world.Private) (step : Step c l d) (lawful : l.Lawful c) :
    d.world.Private := by
  by_cases births : (l.footprint c.world).births
  · cases step with
    | @op call rest named fits takes =>
      cases call with
      | newCompiled kind code builder body =>
        exact priv.birth sound.accounted rfl rfl rfl rfl nofun
      | newInterpreted kind r body =>
        obtain ⟨-, -, one⟩ := lawful
        have acc : Accounted c.world (.record r ::ₘ (rest + c.reserved)) := by
          have acc := sound.accounted
          rw [Config.outside, takes] at acc
          simpa [Op.takes] using acc
        refine priv.birth sound.accounted rfl rfl rfl rfl fun s live => ?_
        cases live
        exact acc.sole one
      | _ => cases births
    | _ => cases births
  · exact priv.steady (step.moves sound).1.steady births (step.sound sound).accounted
      fun _ _ live => Label.not_attached sound.accounted lawful births live

variable {g : GenId} {r : RecordId}

/-- A lawful step that is not about a context leaves the record of the context alone. -/
theorem records_free (sound : c.Sound) (priv : c.world.Private) (step : Step c l d) (lawful : l.Lawful c)
    (live : (c.world.generator g).live = some r) (other : ¬ (l.footprint c.world).contexts g) :
    ¬ (l.footprint c.world).records r := by
  -- A request touches the records of its own context and frame, and no other context has that frame.
  have asked : ∀ k external, c.world.Has (.generator k) → g ≠ k →
      (∀ s, external = some s → c.world.Spare s) → ¬ (Footprint.asking c.world k external).records r := by
    rintro k external has other spare (own | placed | given)
    · exact other (priv.alone own live)
    · exact other (priv.apart (World.has_of_live live) has (priv.only live placed).symm)
    · exact spare r given g live
  intro records
  cases l with
  | op call =>
    cases call with
    | clear s =>
      cases (records : r = s)
      exact lawful g live
    | setState s _ =>
      cases (records : r = s)
      exact lawful g live
    | setLastInstr s _ =>
      cases (records : r = s)
      exact lawful g live
    | setIp f ip =>
      obtain ⟨bound, moved⟩ := records
      obtain ⟨forward, started⟩ := lawful g (priv.only live bound).symm (by rw [live]; rfl)
      rw [World.isJustStarted_of_live live, decide_eq_false_iff_not] at started
      exact moved ⟨fun place => absurd place forward, fun place => absurd place started⟩
    | _ => exact records
  | answered k inj external result => exact asked k external (step.has_asked sound).1 other lawful records
  | entered t inj external => exact asked t.context external (step.has_entered sound).1 other lawful records
  | ended t ending result => exact other (priv.alone records live)
  | _ => exact records

end Step

/-! ## Turns of interpreted contexts -/

namespace World

/-- The record of a context, right before the frame goes on the stack. -/
theorem record_prepare {w : World ε} {g : GenId} {r : RecordId} {external : Option RecordId} {out : Multiset Handle}
    (acc : Accounted w (↑(external.toList.map Handle.record) + out)) (owned : .generator g ∈ out)
    (throwing : Bool) (backing : (w.generator g).backing = .interpreted (some r))
    (own : (w.frame (w.generator g).frame).record = some r) :
    (((w.takeBody g external).begin g throwing).record r).state = .executing ∧
      (((w.takeBody g external).begin g throwing).record r).lastInstr ≠ -1 := by
  have before : w.Has (.generator g) := acc.has (Multiset.mem_add.mpr (.inr owned))
  have taken : Moves { Footprint.request g with records := fun _ => False } w
      (↑(external.toList.map Handle.record) + out) (w.takeBody g external) out :=
    .takeBody rfl (acc.has_frame before) fun _ _ => trivial
  have acc' := (taken.accounted acc).1
  have after : (w.takeBody g external).Has (.generator g) := acc'.has owned
  have backing' : ((w.takeBody g external).generator g).backing = .interpreted (some r) := by
    rw [← backing]
    exact congrArg Status.backing (status_takeBody external after)
  have live : ((w.takeBody g external).generator g).live = some r := by rw [Generator.live, backing']
  have own' : ((w.takeBody g external).frame ((w.takeBody g external).generator g).frame).record = some r := by
    have has := acc'.has_frame after
    rw [(taken.steady.context id after).frame] at has ⊢
    exact taken.steady.record_kept own has
  exact record_begin throwing backing' own' (acc'.has_record live)

theorem record_finish {w : World ε} {t : Turn} {o : ObjId} {r : RecordId} {out rest : Multiset Handle}
    (acc : Accounted w (.frame t.frame ::ₘ out)) (calm : w.fault = none)
    (balanced : w.stack.current = some t.frame) (acc' : Accounted (w.finish t (.yields o)).2 rest)
    (has : (w.finish t (.yields o)).2.Has (.generator t.context))
    (backing : (w.generator t.context).backing = .interpreted (some r)) :
    ((w.finish t (.yields o)).2.record r).state = .suspended ∧
      (((w.finish t (.yields o)).2.record r).lastInstr = -1 ↔ (w.record r).lastInstr = -1) := by
  have status := status_finish acc calm balanced has
  have live : ((w.finish t (.yields o)).2.generator t.context).live = some r := by
    have after : ((w.finish t (.yields o)).2.generator t.context).backing = .interpreted (some r) := by
      refine (congrArg Status.backing status).trans ?_
      simp only [Status.after, World.status, Generator.status, backing, Backing.paused]
    rw [Generator.live, after]
  have there := acc'.has_record live
  have given : r < w.records.next := by
    have before : (w.generator t.context).live = some r := by rw [Generator.live, backing]
    obtain ⟨x, found⟩ := Option.isSome_iff_exists.mp (acc.has_record before)
    exact w.records.lt_next found
  obtain ⟨hs, dropped⟩ := (w.restored t).settle_snd t.context t.closing
    (rfl : (Ending.yields o).isPanic = false)
  have records : (w.finish t (.yields o)).2.records = (((w.restored t).suspend t.context).drop hs).records := by
    rw [finish_of_calm acc calm balanced rfl, settlePanic_snd, catchPanic_eq, dropped]
    rfl
  rw [finish_of_calm acc calm balanced rfl, has_settlePanic, dropped] at has
  obtain ⟨-, -, left⟩ := has_restored has
  have backing' : ((w.restored t).generator t.context).backing = .interpreted (some r) :=
    (congrArg Status.backing (status_restored left)).trans backing
  -- The frame leaves the stack, the context is suspended, and what is not handed on is given back.
  have leave := steady_leave w t.frame
  have suspend : Steady { Footprint.calm with births := False } (w.restored t) _ :=
    (Moves.suspend t.context trivial fun _ _ => trivial : Moves _ _ 0 _ 0).steady
  have drop := steady_drop ((w.restored t).suspend t.context) hs
  have given₁ : r < (w.restored t).records.next := given.trans_le leave.records.next_le
  have given₂ := given₁.trans_le suspend.records.next_le
  have has₃ : (((w.restored t).suspend t.context).drop hs).Has (.record r) := by
    simpa only [Has, records] using there
  have has₁ : (w.restored t).Has (.record r) := suspend.has_record given₁ (drop.has_record given₂ has₃)
  obtain ⟨state, start⟩ := record_suspend backing' has₁
  obtain ⟨state', start'⟩ := drop.record_eq id given₂ has₃
  obtain ⟨-, start''⟩ := leave.record_eq id given has₁
  have same : (w.finish t (.yields o)).2.record r = (((w.restored t).suspend t.context).drop hs).record r := by
    simp only [record, records]
  rw [same]
  refine ⟨state'.trans state, start'.trans (Iff.trans ?_ start'')⟩
  rw [start]
  exact Iff.rfl

end World

namespace Step

variable {c d : Config ε} {t : Turn} {inj : Injection} {external : Option RecordId} {ending : Ending}
  {result : Resumption} {r : RecordId}

theorem entered_record (sound : c.Sound) (step : Step c (.entered t inj external) d)
    (backing : (c.world.generator t.context).backing = .interpreted (some r))
    (own : (c.world.frame (c.world.generator t.context).frame).record = some r) :
    (d.world.record r).state = .executing ∧ (d.world.record r).lastInstr ≠ -1 := by
  cases step with
  | @entered g inj external t w rest takes received =>
    have acc := sound.accounted
    rw [c.outside_of_request takes] at acc
    obtain ⟨body, -, turn, pushed⟩ :=
      World.receive_entered acc (Multiset.mem_cons_self _ _) sound.calm received
    have context : t.context = g := by rw [turn]
    subst context
    rw [inj.offered_add] at acc
    have records := (World.enter_ok pushed).2
    have prepared := World.record_prepare acc (Multiset.mem_add.mpr (.inr (Multiset.mem_cons_self _ _)))
      inj.isThrowing backing own
    simpa only [World.record, records] using prepared

theorem ended_record (sound : c.Sound) (step : Step c (.ended t ending result) d)
    (yields : ending.isYield = true)
    (backing : (c.world.generator t.context).backing = .interpreted (some r)) :
    (d.world.record r).state = .suspended ∧
      ((d.world.record r).lastInstr = -1 ↔ (c.world.record r).lastInstr = -1) := by
  have after := step.sound sound
  have has := (step.has_ended sound).2
  cases step with
  | ended innermost balanced takes =>
    have acc := sound.accounted
    rw [c.outside_of_turn innermost takes] at acc
    cases ending with
    | yields o => exact World.record_finish acc sound.calm balanced after.accounted has backing
    | _ => cases yields

end Step

end Activation
