import Activation.Proofs.Walk.Path
import Mathlib.Data.Nat.Find

/-! # Looking up a first argument

A lookup passes over the frames that it is told to skip, and over frames without a record, and stops at the first record
of the name.

* `World.NamedAt name i r`: the frame at position `i` of the path has the record `r`, and the code of `r` the name.
* `World.FirstNamed name skip i r`: so it is at no position between `skip` and `i`.
* `World.stopsAt_seek`: where the lookup stops; `World.findFirstArg_found`, `World.findFirstArg_missed`: what it returns.
* `World.Hands w found v`: the world `v` differs from `w` by a new reference to what was found, and by reports.
-/

namespace Activation
set_option autoImplicit false

variable {ε : Type}

namespace World

def NamedAt (w : World ε) (name : String) (i : Nat) (r : RecordId) : Prop :=
  ∃ f, w.path w.stack.current i = some f ∧ (w.frame f).record = some r ∧ (w.record r).code.name = name

structure FirstNamed (w : World ε) (name : String) (skip i : Nat) (r : RecordId) : Prop where
  late : skip ≤ i
  here : w.NamedAt name i r
  first : ∀ j s, skip ≤ j → j < i → ¬ w.NamedAt name j s

/-- A retain of a low half that is all ones does not count. -/
structure Hands (w : World ε) (found : Option ObjId) (v : World ε) : Prop where
  rest : { v with objects := w.objects, refTotal := w.refTotal, events := w.events } = w
  reports : w.events.toList <+: v.events.toList
  nothing : found = none → v.objects = w.objects ∧ v.refTotal = w.refTotal
  counted : ∀ o x, found = some o → w.objects.get? o = some x → ∃ h : Header,
    v.objects = (w.setHeader o h).objects ∧ v.refTotal = w.refTotal + (h.count.val - x.header.count.val) ∧
    (if x.header.count.low = 0xffffffff then h = x.header else h.count.val = x.header.count.val + 1) ∧
    (x.header.isImmortal = false → h.count.val = x.header.count.val + 1)

variable {w v : World ε} {name : String} {skip i : Nat} {r : RecordId} {f : FrameId}

/-! ## The visitor -/

theorem recordNamed_eq_some_iff :
    w.recordNamed name f = some r ↔ (w.frame f).record = some r ∧ (w.record r).code.name = name := by
  rw [recordNamed, Option.filter_eq_some_iff, decide_eq_true_iff]

theorem namedAt_iff (here : w.path w.stack.current i = some f) :
    w.NamedAt name i r ↔ w.recordNamed name f = some r := by
  rw [recordNamed_eq_some_iff]
  constructor
  · rintro ⟨g, there, named⟩
    rw [here] at there
    cases there
    exact named
  · exact fun named => ⟨f, here, named⟩

theorem willing_seek (w : World ε) (name : String) : Willing (w.seek name) := by
  intro f s
  unfold seek
  split
  · exact ⟨.onward, rfl⟩
  · split
    · exact ⟨.stop, rfl⟩
    · exact ⟨.onward, rfl⟩

/-- Frames that are skipped or bear another name only use up the number of frames to skip. -/
theorem shown_seek {fs : List FrameId}
    (others : ∀ (j : Nat) (f : FrameId), skip ≤ j → fs[j]? = some f → w.recordNamed name f = none) :
    shown (w.seek name) fs (skip, none) = (skip - fs.length, none) := by
  induction fs generalizing skip with
  | nil => rfl
  | cons f fs ih =>
    show shown (w.seek name) fs (w.seek name f (skip, none)).2 = _
    cases skip with
    | zero =>
      have passed : w.seek name f (0, none) = (.ok .onward, (0, none)) := by
        simp [seek, others 0 f (Nat.le_refl 0) rfl]
      rw [passed, ih fun j g _ there => others (j + 1) g (Nat.zero_le _) there]
      simp
    | succ skip =>
      have passed : w.seek name f (skip + 1, none) = (.ok .onward, (skip, none)) := by simp [seek]
      rw [passed, ih fun j g late there => others (j + 1) g (Nat.succ_le_succ late) there]
      simp

theorem shown_route_seek (before : ∀ j s, skip ≤ j → j < i → ¬ w.NamedAt name j s) :
    shown (w.seek name) (w.route w.stack.current i) (skip, none) =
      (skip - (w.route w.stack.current i).length, none) := by
  apply shown_seek
  intro j g late there
  rw [getElem?_route] at there
  split at there
  · next earlier =>
    cases named : w.recordNamed name g with
    | none => rfl
    | some s => exact absurd ((namedAt_iff there).mpr named) (before j s late earlier)
  · cases there

/-- The state in which the visitor comes to position `i`. -/
theorem shown_seek_before (before : ∀ j s, skip ≤ j → j < i → ¬ w.NamedAt name j s)
    (here : w.path w.stack.current i = some f) :
    shown (w.seek name) (w.route w.stack.current i) (skip, none) = (skip - i, none) := by
  rw [shown_route_seek before,
    length_route fun j earlier => path_isSome_of_le (by rw [here]; rfl) (Nat.le_of_lt earlier)]

theorem stopsAt_seek (before : ∀ j s, skip ≤ j → j < i → ¬ w.NamedAt name j s) :
    w.StopsAt w.stack.current (w.seek name) (skip, none) i ↔ skip ≤ i ∧ ∃ r, w.NamedAt name i r := by
  constructor
  · rintro ⟨f, here, stops⟩
    rw [shown_seek_before before here, seek] at stops
    split at stops
    · cases stops
    · next all =>
      split at stops
      · next r named => exact ⟨by simpa [Nat.sub_eq_zero_iff_le] using all, r, (namedAt_iff here).mpr named⟩
      · cases stops
  · rintro ⟨late, r, named⟩
    obtain ⟨f, here, -⟩ := id named
    refine ⟨f, here, ?_⟩
    rw [shown_seek_before before here, Nat.sub_eq_zero_of_le late, seek, (namedAt_iff here).mp named]
    rfl

/-! ## What is found -/

theorem slot_fst (r : RecordId) (i : Nat) : (w.slot r i).1 = (w.record r).slot i := by
  unfold slot
  split
  · next unbound => exact unbound.symm
  · next o bound => exact bound.symm

theorem findFirstArg_found (found : w.FirstNamed name skip i r) (within : i < w.maxDepth) :
    w.findFirstArg name skip = (.ok ((w.record r).slot 0), (w.slot r 0).2.reportWalk (.ok (i + 1))) := by
  obtain ⟨f, here, -⟩ := id found.here
  have onward : ∀ j < i, ¬ w.StopsAt w.stack.current (w.seek name) (skip, none) j := by
    intro j earlier stops
    have before : ∀ k s, skip ≤ k → k < j → ¬ w.NamedAt name k s := fun k s late sooner =>
      found.first k s late (sooner.trans earlier)
    obtain ⟨late, s, named⟩ := (stopsAt_seek before).mp stops
    exact found.first j s late earlier named
  have walked := walkFrom_of_stop (willing_seek w name)
    ((stopsAt_seek found.first).mpr ⟨found.late, r, found.here⟩) onward within
  have last : shown (w.seek name) (w.route w.stack.current (i + 1)) (skip, none) = (0, some r) := by
    rw [route_add, here, shown, List.foldl_append]
    show (w.seek name f (shown (w.seek name) (w.route w.stack.current i) (skip, none))).2 = _
    rw [shown_seek_before found.first here, Nat.sub_eq_zero_of_le found.late, seek, (namedAt_iff here).mp found.here]
    rfl
  rw [last] at walked
  simp only [findFirstArg, walked, slot_fst, Except.map]

theorem exists_firstNamed (late : skip ≤ i) (named : w.NamedAt name i r) :
    ∃ j s, j ≤ i ∧ w.FirstNamed name skip j s := by
  classical
  have some_position : ∃ j, skip ≤ j ∧ ∃ s, w.NamedAt name j s := ⟨i, late, r, named⟩
  obtain ⟨first_late, s, here⟩ := Nat.find_spec some_position
  refine ⟨Nat.find some_position, s, Nat.find_min' some_position ⟨late, r, named⟩, first_late, here, ?_⟩
  exact fun j t after sooner other => Nat.find_min some_position sooner ⟨after, t, other⟩

theorem findFirstArg_missed (missed : ¬ ∃ i r, w.FirstNamed name skip i r ∧ i < w.maxDepth) :
    (w.findFirstArg name skip).1 =
        (if w.path w.stack.current w.maxDepth = none then .ok none else .error (.depthExceeded w.maxDepth)) ∧
      ∃ result, (w.findFirstArg name skip).2 = w.reportWalk result := by
  have unnamed : ∀ j s, skip ≤ j → j < w.maxDepth → ¬ w.NamedAt name j s := by
    intro j s late within named
    obtain ⟨i, r, sooner, first⟩ := exists_firstNamed late named
    exact missed ⟨i, r, first, by omega⟩
  have onward : ∀ i < w.maxDepth, ¬ w.StopsAt w.stack.current (w.seek name) (skip, none) i := by
    intro i within stops
    have before : ∀ j s, skip ≤ j → j < i → ¬ w.NamedAt name j s := fun j s late sooner =>
      unnamed j s late (sooner.trans within)
    obtain ⟨late, s, named⟩ := (stopsAt_seek before).mp stops
    exact unnamed i s late within named
  have walked := walkFrom_of_onward (willing_seek w name) onward
  rw [shown_route_seek unnamed] at walked
  simp only [findFirstArg, walked]
  refine ⟨?_, _, rfl⟩
  split <;> rfl

/-! ## What is handed out -/

namespace Hands

variable {found : Option ObjId}

theorem refl (w : World ε) : w.Hands none w where
  rest := rfl
  reports := List.prefix_refl _
  nothing _ := ⟨rfl, rfl⟩
  counted o x found := by cases found

theorem emit (hands : w.Hands found v) (e : Event) : w.Hands found (v.emit e) where
  rest := hands.rest
  reports := hands.reports.trans (by simp [World.emit])
  nothing := hands.nothing
  counted := hands.counted

theorem reportWalk (hands : w.Hands found v) (result : Except WalkError Nat) :
    w.Hands found (v.reportWalk result) := by
  unfold World.reportWalk
  split
  · exact hands.emit _
  · exact hands.emit _
  · exact hands

theorem noteRetain (w : World ε) {o : ObjId} {x : Object} {h : Header} (there : w.objects.get? o = some x)
    (retained : x.header.retain = some h) : w.Hands (some o) ((w.noteRetain h).setHeader o h) := by
  have more := Header.val_of_retain retained
  have counted : w.Hands (some o) ({ w with refTotal := w.refTotal + 1 }.setHeader o h) := by
    refine ⟨rfl, List.prefix_refl _, (fun none => by cases none), fun p y found there_too => ⟨h, ?_⟩⟩
    cases found
    rw [there] at there_too
    cases there_too
    rw [if_neg (Header.room_of_retain retained)]
    refine ⟨rfl, ?_, more, fun _ => more⟩
    show w.refTotal + 1 = _
    omega
  unfold World.noteRetain traceCount
  split
  · exact counted.emit _
  · exact counted

theorem retain (w : World ε) (o : ObjId) : w.Hands (some o) (w.retain o) := by
  unfold World.retain
  split
  · next skipped =>
    refine ⟨rfl, List.prefix_refl _, (fun none => by cases none), fun p x found there => ⟨x.header, ?_⟩⟩
    cases found
    rw [there, Option.bind_some] at skipped
    have full : x.header.count.low = 0xffffffff := by
      by_contra room
      obtain ⟨k, retained, -⟩ := Header.retain_of_room room
      rw [skipped] at retained
      cases retained
    have same : (w.setHeader o x.header).objects = w.objects := by
      refine Store.modify_eq_self w.objects fun y there_too => ?_
      rw [there] at there_too
      cases there_too
      rfl
    rw [if_pos full]
    refine ⟨same.symm, by omega, rfl, fun mortal => ?_⟩
    have low := Header.low_lt_of_mortal mortal
    omega
  · next h counted =>
    obtain ⟨x, there, retained⟩ := Option.bind_eq_some_iff.mp counted
    exact noteRetain w there retained

theorem slot (w : World ε) (r : RecordId) (i : Nat) : w.Hands ((w.record r).slot i) (w.slot r i).2 := by
  unfold World.slot
  split
  · next unbound => exact unbound ▸ refl w
  · next o bound => exact bound ▸ retain w o

end Hands

end World

theorem findFirstArg_finds_first (w : World ε) (name : String) (skip : Nat) :
    (∀ i r, w.FirstNamed name skip i r → i < w.maxDepth →
      (w.findFirstArg name skip).1 = .ok ((w.record r).slot 0) ∧
      w.Hands ((w.record r).slot 0) (w.findFirstArg name skip).2) ∧
    ((¬ ∃ i r, w.FirstNamed name skip i r ∧ i < w.maxDepth) →
      (w.findFirstArg name skip).1 =
        (if w.path w.stack.current w.maxDepth = none then .ok none else .error (.depthExceeded w.maxDepth)) ∧
      w.Hands none (w.findFirstArg name skip).2) := by
  constructor
  · intro i r found within
    have answer := World.findFirstArg_found found within
    rw [answer]
    exact ⟨rfl, (World.Hands.slot w r 0).reportWalk (.ok (i + 1))⟩
  · intro missed
    obtain ⟨result, walk, reported⟩ := World.findFirstArg_missed missed
    rw [reported]
    exact ⟨result, (World.Hands.refl w).reportWalk walk⟩

/-- Four frames of one name; the first is to be skipped, the second has no record. -/
def World.namesakes : World Unit :=
  let task : Code := ⟨"app", "task", none, 0, 1, []⟩
  { objects := (Store.empty.insert .nothing).insert ⟨.fresh, .int, .int 7⟩
    records := ((Store.empty.insert { code := task }).insert { code := task, slots := [some 1] }).insert
      { code := task }
    frames := (((Store.empty.insert { code := task, record := some 0, prev := some 1 }).insert
      { code := task, prev := some 2 }).insert { code := task, record := some 1, prev := some 3 }).insert
      { code := task, record := some 2 }
    stack := ⟨some 0, 4⟩
    maxDepth := 3
    host := () }

theorem findFirstArg_finds_first_namesakes :
    World.namesakes.FirstNamed "task" 1 2 1 ∧
      (World.namesakes.findFirstArg "task" 1).1 = .ok (some 1) ∧
      ∃ h : Header, h.count.val = 2 ∧
        (World.namesakes.findFirstArg "task" 1).2.objects = (World.namesakes.setHeader 1 h).objects := by
  have first : World.namesakes.FirstNamed "task" 1 2 1 := by
    refine ⟨by decide, ⟨2, rfl, rfl, rfl⟩, ?_⟩
    rintro j s late sooner ⟨f, there, bound, -⟩
    obtain rfl : j = 1 := by omega
    obtain rfl : 1 = f := Option.some.inj there
    have compact : (World.namesakes.frame 1).record = none := rfl
    rw [compact] at bound
    cases bound
  obtain ⟨answer, hands⟩ := (findFirstArg_finds_first World.namesakes "task" 1).1 2 1 first (by decide)
  obtain ⟨h, objects, -, -, more⟩ := hands.counted 1 _ rfl rfl
  exact ⟨first, answer, h, more (by decide), objects⟩

end Activation
