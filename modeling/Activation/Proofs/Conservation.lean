import Activation.Proofs.Handles.Calls
import Activation.Proofs.Play

/-! # Conservation of references

In every state of every program the count of a mortal object is the number of handles on it, wherever they
are. An object dies at the step that gives up its last handle, its destructor is told once and at a count of
zero, and nobody holds a handle on it from then on. An immortal object never dies.

* `Config.handlesOn`: the handles on an object, in slots of records, in the hands of the program, and lost.
* `Config.Conserved`: the counts are right, and what has gone has no handles.
* `Step.becomes_immortal`: an object becomes immortal by being marked, or by `2^31` handles.
* `references_conserved`: the whole of it, for every run.
-/

namespace Activation
set_option autoImplicit false

variable {ε : Type}

/-! ## Handles on one object -/

/-- The handles on an object: in bound slots, in the hands of the program, and lost by a stray body. -/
def Config.handlesOn (c : Config ε) (o : ObjId) : Nat :=
  c.world.records.weigh (fun x => x.bound.count o) + c.owned.count (.object o) + c.lost.count (.object o)

structure Config.Conserved (c : Config ε) : Prop where
  counted : ∀ o x, c.world.objects.get? o = some x → x.header.isImmortal = false →
    x.header.count.val = c.handlesOn o ∧ 0 < c.handlesOn o
  gone : ∀ o, ¬ c.world.Has (.object o) → c.handlesOn o = 0

theorem tally_object (o : ObjId) (a : Multiset Handle) : tally (.object o) a = a.count (.object o) := by
  induction a using Multiset.induction_on with
  | empty => simp
  | cons k a ih =>
    rw [tally_cons, Multiset.count_cons, ih]
    cases k <;> simp [Handle.detached]

theorem tally_held_object (o : ObjId) (x : Object) : tally (.object o) x.held = 0 := by
  rw [tally_object]
  unfold Object.held
  split <;> simp

theorem tally_held_record (o : ObjId) (x : Record) : tally (.object o) x.held = x.bound.count o := by
  rw [tally_object, Record.held, Multiset.coe_count]
  exact List.count_map_of_injective x.bound Handle.object (fun _ _ => Handle.object.inj) o

theorem tally_held_frame (o : ObjId) (x : Frame) : tally (.object o) x.held = 0 := by
  rw [tally_object]
  simp [Frame.held, Frame.heldRecord, Frame.heldBelow]

theorem tally_held_generator (o : ObjId) (x : Generator) : tally (.object o) x.held = 0 := by
  rw [tally_object, Generator.held_eq]
  simp

theorem tally_held_turns (o : ObjId) (turns : List Turn) :
    tally (.object o) ↑(turns.flatMap Turn.held) = 0 := by
  rw [tally_object]
  simp [Turn.held]

theorem Store.weigh_eq_zero {α : Type} (s : Store α) : s.weigh (fun _ => 0) = 0 := by
  have zero : ∀ l : List (Option α), listWeight (cellWeight fun _ => 0) l = 0 := by
    intro l
    induction l with
    | nil => rfl
    | cons c l ih => cases c <;> simp [listWeight, cellWeight, ih]
  exact zero _

/-- All handles on an object are in slots or outside the world. -/
theorem Config.handlesOn_eq (c : Config ε) (o : ObjId) :
    c.world.inside (.object o) + tally (.object o) c.outside = c.handlesOn o := by
  have stack : tally (.object o) c.world.stack.held = 0 := by
    rw [tally_object]
    simp [Stack.held]
  simp only [World.inside, tally_held_object, tally_held_record, tally_held_frame, tally_held_generator,
    Store.weigh_eq_zero, stack, Config.outside, Config.reserved, tally_add, tally_held_turns]
  simp only [tally_object, Config.handlesOn]
  omega

namespace Config.Sound

variable {c : Config ε}

theorem owned (sound : c.Sound) {o : ObjId} {x : Object} (found : c.world.objects.get? o = some x)
    (mortal : x.header.isImmortal = false) :
    x.header.count.val = c.handlesOn o ∧ 0 < c.handlesOn o ∧ c.handlesOn o < 0x80000000 := by
  have counted : x.Owned _ := (Store.Counted.of_some found).mp (sound.accounted (.object o))
  rw [c.handlesOn_eq] at counted
  obtain ⟨count, pos, bound, -⟩ := counted.of_mortal mortal
  exact ⟨count, pos, bound⟩

theorem conserved (sound : c.Sound) : c.Conserved where
  counted o x found mortal := by
    obtain ⟨count, pos, -⟩ := sound.owned found mortal
    exact ⟨count, pos⟩
  gone o missing := by
    have counted := sound.accounted (.object o)
    rw [c.handlesOn_eq] at counted
    exact (Store.Counted.of_none (World.not_has_object.mp missing)).mp counted

end Config.Sound

/-! ## Mortal objects stay mortal -/

theorem Move.mortal {F : Footprint} {w v : World ε} {out rest : Multiset Handle} (move : Move F w out v rest)
    (acc : Accounted w out) {o : ObjId} {x y : Object} (before : w.objects.get? o = some x)
    (after : v.objects.get? o = some y) (mortal : x.header.isImmortal = false) (free : ¬ F.retained o) :
    y.header.isImmortal = false := by
  have unchanged : v.objects.get? o = w.objects.get? o → y.header.isImmortal = false := by
    intro same
    rw [after, before] at same
    cases same
    exact mortal
  cases move with
  | giveBack h =>
    cases h with
    | object p =>
      obtain ⟨z, found, ⟨-, eq⟩ | ⟨-, -, total, events, deaths, eq⟩ |
        ⟨counted, k, count, more, total, events, eq⟩⟩ := acc.giveBackObject_cases
      · exact unchanged (by simp only [World.giveBack, eq])
      · simp only [World.giveBack, eq, Store.get?_erase] at after unchanged
        split at after
        · cases after
        · next other => exact unchanged (if_neg other)
      · simp only [World.giveBack, eq, Store.get?_modify] at after unchanged
        split at after
        · next own =>
          subst own
          rw [found] at after
          cases after
          have owned : z.Owned _ := (Store.Counted.of_some found).mp (acc (.object p))
          have := owned.of_mortal counted
          exact Header.mortal_of_lt (by simp only []; omega) (by simp only []; omega)
        · next other => exact unchanged (if_neg other)
    | _ => exact unchanged rfl
  | @hold h _ has allowed =>
    cases h with
    | object p =>
      have other : p ≠ o := fun own => free (allowed o (congrArg _ own))
      refine unchanged ?_
      simp only [World.hold, World.retain]
      split
      · rfl
      · next k _ =>
        obtain ⟨total, events, eq⟩ := w.setHeader_noteRetain_eq p k
        simp only [eq, Store.get?_modify, if_neg other]
    | _ => exact unchanged rfl
  | addObject born =>
    refine unchanged ?_
    simp only [World.addObject, Store.get?_insert]
    exact if_neg (Nat.ne_of_lt (w.objects.lt_next before))
  | markImmortal p allowed =>
    have other : p ≠ o := fun own => free (own ▸ allowed)
    refine unchanged ?_
    simp only [World.markImmortal, World.setHeader, World.modifyObject, Store.get?_modify, if_neg other]
  | quiet same => exact unchanged (by rw [same.objects])
  | _ => exact unchanged rfl

theorem Moves.mortal {F : Footprint} {w v : World ε} {out rest : Multiset Handle}
    (moves : Moves F w out v rest) (acc : Accounted w out) {o : ObjId} {x y : Object}
    (before : w.objects.get? o = some x) (after : v.objects.get? o = some y)
    (mortal : x.header.isImmortal = false) (free : ¬ F.retained o) : y.header.isImmortal = false := by
  induction moves generalizing y with
  | refl =>
    rw [before] at after
    cases after
    exact mortal
  | tail init last ih =>
    obtain ⟨died, aged⟩ := init.ages
    obtain ⟨more, aged'⟩ := last.ages
    -- identities are not given out twice, so the object was there in between
    have given := (w.objects.lt_next before).trans_le aged.objects.next_le
    obtain ⟨z, found, -⟩ := aged'.objects.old given after
    exact last.mortal (init.accounted acc).1 found after (ih found) free

/-- A call that retains an object hands out one handle on it, or marks it immortal. -/
theorem Op.run_of_retained {w : World ε} {op : Op} {o : ObjId} (retained : (op.footprint w).retained o) :
    op = .markImmortal o ∨
      op.takes = [] ∧ (op.run w).1 = [.object o] ∧ (op.run w).2.objects = (w.retain o).objects ∧
        (op.run w).2.records = (w.retain o).records := by
  cases op with
  | clone h =>
    cases (retained : h = .object o)
    exact .inr ⟨rfl, rfl, rfl, rfl⟩
  | markImmortal p => exact .inl (congrArg _ (Eq.symm retained))
  | slot r i =>
    have bound : (w.record r).slot i = some o := retained
    refine .inr ⟨rfl, ?_, ?_, ?_⟩ <;> simp [Op.run, World.slot, bound]
  | findFirstArg name skip =>
    have found : (w.findFirstArg name skip).1.toOption.join = some o := retained
    have report : ∀ (v : World ε) k, (v.reportWalk k).objects = v.objects ∧ (v.reportWalk k).records = v.records := by
      intro v k
      unfold World.reportWalk
      split <;> exact ⟨rfl, rfl⟩
    rcases w.findFirstArg_cases name skip with ⟨r, k, eq⟩ | ⟨k, nothing, -⟩
    · simp only [eq, Except.toOption, Option.join_some] at found
      have read : w.slot r 0 = (some o, w.retain o) := by
        unfold World.slot at found ⊢
        split
        · next empty => simp [empty] at found
        · next p bound =>
          simp only [bound, Option.some.injEq] at found
          rw [found]
      rw [read] at eq
      exact .inr ⟨rfl, by simp [Op.run, eq, Except.toOption], by simp [Op.run, eq, report],
        by simp [Op.run, eq, report]⟩
    · rw [nothing] at found
      cases found
  | _ => cases retained

theorem World.records_retain (w : World ε) (o : ObjId) : (w.retain o).records = w.records := by
  unfold World.retain
  split
  · rfl
  · next k _ =>
    obtain ⟨total, events, eq⟩ := w.setHeader_noteRetain_eq o k
    rw [eq]

/-- An object becomes immortal by being marked, or by `2^31` handles. -/
theorem Step.becomes_immortal {c d : Config ε} {l : Label} (sound : c.Sound) (step : Step c l d)
    {o : ObjId} {x y : Object} (before : c.world.objects.get? o = some x)
    (after : d.world.objects.get? o = some y) (mortal : x.header.isImmortal = false)
    (saved : y.header.isImmortal = true) : l = .op (.markImmortal o) ∨ 0x80000000 ≤ d.handlesOn o := by
  by_cases retained : (l.footprint c.world).retained o
  · cases step with
    | @op op rest named fits takes =>
      rcases Op.run_of_retained retained with marked | ⟨nothing, out, objects, records⟩
      · exact .inl (congrArg _ marked)
      · refine .inr ?_
        -- the call hands out one more handle, so below the bound the new count is the number of handles
        obtain ⟨k, retains, count⟩ := Header.retain_of_mortal mortal
        obtain ⟨total, events, eq⟩ := c.world.setHeader_noteRetain_eq o k
        have stored : c.world.retain o = (c.world.noteRetain k).setHeader o k := by
          simp [World.retain, before, retains]
        have header : y.header = k := by
          simp only [objects, stored, eq, Store.get?_modify, before, if_true, Option.map_some,
            Option.some.injEq] at after
          rw [← after]
        have one_more : Config.handlesOn { c with
            world := (op.run c.world).2, owned := ↑(op.run c.world).1 + rest } o = c.handlesOn o + 1 := by
          simp only [Config.handlesOn, records, World.records_retain, out, takes, nothing]
          simp
          omega
        obtain ⟨owned, -, -⟩ := sound.owned before mortal
        rw [header] at saved
        by_contra few
        have low : k.isImmortal = false := Header.mortal_of_lt (by omega) (by omega)
        rw [saved] at low
        cases low
    | _ => cases retained
  · have still := (step.moves sound).1.mortal sound.accounted before after mortal retained
    rw [saved] at still
    cases still

/-! ## Runs -/

def Label.isStrayed : Label → Bool
  | .strayed _ _ _ => true
  | _ => false

namespace Run

variable {c d : Config ε} {ls : List Label}

theorem ages (sound : c.Sound) (run : Run c ls d) : ∃ died, Ages c.world d.world died := by
  induction run with
  | nil => exact ⟨[], .refl _⟩
  | snoc before step ih =>
    obtain ⟨died, aged⟩ := ih
    obtain ⟨more, aged'⟩ := (step.moves (before.sound sound)).1.ages
    exact ⟨died ++ more, aged.trans aged'⟩

theorem lost_eq (run : Run c ls d) (straight : ∀ l ∈ ls, l.isStrayed = false) : d.lost = c.lost := by
  induction run with
  | nil => rfl
  | @snoc ls l d e _ step ih =>
    have before : d.lost = c.lost := ih fun k member => straight k (List.mem_append_left _ member)
    have last : l.isStrayed = false := straight l (List.mem_append_right _ (List.mem_singleton_self l))
    cases step with
    | strayed => cases last
    | _ => exact before

end Run

/-- References are conserved. In every state of a program the count of each mortal object is the number of
handles on it, and what has gone has none. Over any further run exactly those mortal objects die that have
lost their last handle; each dies once and its destructor is told then, at a count of zero, and none of them
comes back. Immortal objects stay, and an object only becomes immortal by being marked or by `2^31` handles.
No handle is ever lost but by a body that strays. -/
theorem references_conserved (host : ε) {ls : List Label} {c : Config ε}
    (run : Run (Config.start host) ls c) :
    c.Conserved ∧
    (∀ {ms : List Label} {d : Config ε}, Run c ms d →
      d.Conserved ∧ (∀ o, c.world.Immortal o → d.world.Immortal o) ∧
      ∃ died, Ages c.world d.world died ∧
        ∀ o x, c.world.objects.get? o = some x → x.header.isImmortal = false →
          (o ∈ died.map Prod.fst ↔ d.handlesOn o = 0 ∧ ¬ d.world.Immortal o)) ∧
    (∀ {l : Label} {d : Config ε}, Step c l d → ∀ o x y, c.world.objects.get? o = some x →
      d.world.objects.get? o = some y → x.header.isImmortal = false → y.header.isImmortal = true →
      l = .op (.markImmortal o) ∨ 0x80000000 ≤ d.handlesOn o) ∧
    ((∀ l ∈ ls, l.isStrayed = false) → c.lost = 0) := by
  have sound := run.sound (Config.start_sound host)
  refine ⟨sound.conserved, fun {ms d} later => ?_, fun {l d} step o x y => ?_, run.lost_eq⟩
  · have sound' := later.sound sound
    obtain ⟨died, aged⟩ := later.ages sound
    refine ⟨sound'.conserved, fun o => aged.immortal, died, aged, fun o x found mortal => ?_⟩
    have given := (c.world.objects.lt_next found).trans_le aged.objects.next_le
    rw [aged.gone o]
    constructor
    · rintro ⟨-, -, dead⟩
      refine ⟨sound'.conserved.gone o dead, ?_⟩
      rintro ⟨y, there, -⟩
      exact dead (World.has_object.mpr ⟨y, there⟩)
    · rintro ⟨none, notSaved⟩
      refine ⟨.inl (World.has_object.mpr ⟨x, found⟩), given, fun has => ?_⟩
      obtain ⟨y, there⟩ := World.has_object.mp has
      cases saved : y.header.isImmortal with
      | true => exact notSaved ⟨y, there, saved⟩
      | false =>
        obtain ⟨-, pos⟩ := sound'.conserved.counted o y there saved
        omega
  · exact step.becomes_immortal sound

/-- An object with a destructor gets a second handle, which moves into a slot of a record. The object survives
the record but for one handle, and dies with the last one. -/
theorem references_conserved_probe :
    ∃ (ls ms : List Label) (c d : Config Unit), Run (Config.start ()) ls c ∧ Run c ms d ∧
      c.Conserved ∧ c.handlesOn 1 = 2 ∧ d.handlesOn 1 = 0 ∧
      ∃ died, Ages c.world d.world died ∧ 1 ∈ died.map Prod.fst ∧
        d.world.deaths.toList = [⟨"probe", .int 7, 0⟩] := by
  let counts (_ : List Label) (c : Config Unit) : Bool :=
    c.handlesOn 1 == 2 && (c.world.objects.get? 1).any (fun x => !x.header.isImmortal) &&
      (c.playAll? [.call (.drop (.record 0)), .call (.drop (.object 1))]).any fun r =>
        r.2.handlesOn 1 == 0 && (r.2.world.objects.get? 1).isNone &&
          decide (r.2.world.deaths.toList = [⟨"probe", .int 7, 0⟩])
  obtain ⟨ls, c, run, holds⟩ := Config.exists_run (p := counts)
    [.call (.newObject ⟨"probe", .none, true⟩ (.int 7)), .call (.clone (.object 1)),
      .call (.newRecord { code := { module := "m", name := "f" }, slots := [some 1] })]
    (by decide +kernel : ((Config.start ()).playAll? _).any _ = true)
  unfold counts at holds
  simp only [Bool.and_eq_true, beq_iff_eq, Option.any_eq_true, Bool.not_eq_true'] at holds
  obtain ⟨⟨two, x, found, mortal⟩, r, played, ⟨none, missing⟩, told⟩ := holds
  obtain ⟨conserved, later, -⟩ := references_conserved () run
  have more : Run c r.1 r.2 := Config.run_of_playAll? played
  obtain ⟨-, -, died, aged, dies⟩ := later more
  refine ⟨ls, r.1, c, r.2, run, more, conserved, two, none, died, aged, ?_, of_decide_eq_true told⟩
  refine (dies 1 x found mortal).mpr ⟨none, ?_⟩
  rintro ⟨y, there, -⟩
  rw [there] at missing
  cases missing

end Activation
