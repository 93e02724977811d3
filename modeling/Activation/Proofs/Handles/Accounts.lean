import Activation.Proofs.Handles.Moves

/-! # Accounts

Every thing knows how many handles there are on it, wherever they are.

* `tally h hs`: the handles of `hs` that are on the thing of `h`. A handle on a frame below another counts
  as a handle on the frame.
* `World.inside w h`: the same for the handles that are kept inside the world.
* `Accounted w out`: with the handles `out` outside the world, the count of every thing is the number of
  handles on it. What is not there has no handles, and the handles on immortal objects do not matter. The
  destructors of the objects that can die only look on.
* `Moves.accounted`: moves keep the accounts, and no count that is given back starts a panic.
-/

namespace Activation
set_option autoImplicit false

variable {ε : Type}

/-! ## Counting handles -/

def tally (h : Handle) (hs : Multiset Handle) : Nat := (hs.map Handle.detached).count h

@[simp] theorem tally_zero (h : Handle) : tally h 0 = 0 := by simp [tally]

@[simp] theorem tally_add (h : Handle) (a b : Multiset Handle) : tally h (a + b) = tally h a + tally h b := by
  simp [tally]

@[simp] theorem tally_cons (h k : Handle) (a : Multiset Handle) :
    tally h (k ::ₘ a) = tally h a + if h = k.detached then 1 else 0 := by
  simp [tally, Multiset.count_cons]

theorem tally_of_map_eq {a b : Multiset Handle} (h : Handle)
    (same : a.map Handle.detached = b.map Handle.detached) : tally h a = tally h b := by
  rw [tally, tally, same]

theorem tally_pos {k : Handle} {a : Multiset Handle} (member : k ∈ a) : 0 < tally k.detached a :=
  Multiset.count_pos.mpr (Multiset.mem_map_of_mem _ member)

namespace World

/-- The handles inside the world on the thing of `h`. -/
def inside (w : World ε) (h : Handle) : Nat :=
  w.objects.weigh (fun x => tally h x.held) + w.records.weigh (fun x => tally h x.held)
    + w.frames.weigh (fun x => tally h x.held) + w.generators.weigh (fun x => tally h x.held)
    + tally h w.stack.held

end World

/-! ## Counts -/

def OwnedBy {α : Type} (owners : α → Nat) (x : α) (n : Nat) : Prop := owners x = n ∧ 0 < n

/-- What is there is owned as `owned` says, and what is not there has no owners. -/
def Store.Counted {α : Type} (owned : α → Nat → Prop) (s : Store α) (i n : Nat) : Prop :=
  match s.get? i with
  | none => n = 0
  | some x => owned x n

namespace Store.Counted

variable {α : Type} {owned : α → Nat → Prop} {s : Store α} {i j n m : Nat}

theorem of_some {x : α} (found : s.get? i = some x) : s.Counted owned i n ↔ owned x n := by
  simp [Store.Counted, found]

theorem of_none (missing : s.get? i = none) : s.Counted owned i n ↔ n = 0 := by
  simp [Store.Counted, missing]

theorem empty (owned : α → Nat → Prop) (i : Nat) : (Store.empty : Store α).Counted owned i 0 :=
  (of_none (get?_empty i)).mpr rfl

theorem isSome (counted : s.Counted owned i n) (pos : 0 < n) : (s.get? i).isSome := by
  cases found : s.get? i with
  | none => exact absurd ((of_none found).mp counted) (Nat.ne_of_gt pos)
  | some x => rfl

theorem modify {x : α} {f : α → α} (counted : s.Counted owned j n) (found : s.get? i = some x)
    (here : i = j → owned x n → owned (f x) m) (there : i ≠ j → m = n) :
    (s.modify i f).Counted owned j m := by
  by_cases eq : i = j
  · subst eq
    rw [of_some (x := f x) (by simp [get?_modify, found])]
    exact here rfl ((of_some found).mp counted)
  · rw [there eq]
    simpa [Store.Counted, get?_modify, eq] using counted

theorem erase (counted : s.Counted owned j n) (here : i = j → m = 0) (there : i ≠ j → m = n) :
    (s.erase i).Counted owned j m := by
  by_cases eq : i = j
  · subst eq
    rw [of_none (by simp [get?_erase])]
    exact here rfl
  · rw [there eq]
    simpa [Store.Counted, get?_erase, eq] using counted

theorem insert {x : α} (counted : s.Counted owned j n) (here : j = s.next → n = 0 → owned x m)
    (there : j ≠ s.next → m = n) : (s.insert x).Counted owned j m := by
  by_cases eq : j = s.next
  · subst eq
    have missing : s.get? s.next = none := by
      cases taken : s.get? s.next with
      | none => rfl
      | some y => exact absurd (s.lt_next taken) (Nat.lt_irrefl _)
    rw [of_some (x := x) (by simp)]
    exact here rfl ((of_none missing).mp counted)
  · rw [there eq]
    simpa [Store.Counted, get?_insert, eq] using counted

theorem own {owners : α → Nat} {f : α → α} (counted : s.Counted (OwnedBy owners) j n)
    (one : ∀ x, owners (f x) = owners x + 1) (has : (s.get? i).isSome) (here : i = j → m = n + 1)
    (there : i ≠ j → m = n) : (s.modify i f).Counted (OwnedBy owners) j m := by
  obtain ⟨x, found⟩ := Option.isSome_iff_exists.mp has
  refine counted.modify found (fun eq owned => ?_) there
  have count := here eq
  obtain ⟨owned, -⟩ := owned
  exact ⟨by rw [one]; omega, by omega⟩

theorem disown {owners : α → Nat} {less : α → α} (counted : s.Counted (OwnedBy owners) j n)
    (one : ∀ x, owners (less x) = owners x - 1) (here : i = j → n = m + 1) (there : i ≠ j → m = n) :
    (s.disown owners less i).1.Counted (OwnedBy owners) j m := by
  unfold Store.disown
  split
  · next missing =>
    have other : i ≠ j := by
      rintro rfl
      have none := (of_none missing).mp counted
      have some := here rfl
      omega
    rw [there other]
    exact counted
  · next x found =>
    split
    · next last =>
      refine counted.erase (fun eq => ?_) there
      have count := here eq
      subst eq
      obtain ⟨owned, -⟩ := (of_some found).mp counted
      omega
    · next more =>
      refine counted.modify found (fun eq owned => ?_) there
      have count := here eq
      obtain ⟨owned, -⟩ := owned
      exact ⟨by rw [one]; omega, by omega⟩

end Store.Counted

/-- Nobody counts the handles on an immortal object. -/
def Object.Owned (x : Object) (n : Nat) : Prop :=
  x.header.isImmortal = true ∨
    x.header.count.val = n ∧ 0 < n ∧ n < 0x80000000 ∧ x.type.destructor.Observes

theorem Object.Owned.of_mortal {x : Object} {n : Nat} (owned : x.Owned n) (mortal : x.header.isImmortal = false) :
    x.header.count.val = n ∧ 0 < n ∧ n < 0x80000000 ∧ x.type.destructor.Observes := by
  simpa only [Object.Owned, mortal, Bool.false_eq_true, false_or] using owned

/-- The thing of a handle is there with `n` handles on it, or it is gone and there are none. -/
def World.Counts (w : World ε) : Handle → Nat → Prop
  | .object o => w.objects.Counted Object.Owned o
  | .record r => w.records.Counted (OwnedBy Record.owners) r
  | .frame f => w.frames.Counted (OwnedBy Frame.owners) f
  | .below _ => fun _ => True
  | .generator g => w.generators.Counted (OwnedBy Generator.owners) g

/-- All handles are accounted for. -/
def Accounted (w : World ε) (out : Multiset Handle) : Prop := ∀ h, w.Counts h (w.inside h + tally h out)

/-! ## Things with handles on them are there -/

namespace Accounted

variable {w : World ε} {out : Multiset Handle}

theorem has_of_pos (acc : Accounted w out) {h : Handle} (pos : 0 < w.inside h.detached + tally h.detached out) :
    w.Has h := by
  have counted := acc h.detached
  cases h with
  | object o => exact counted.isSome pos
  | record r => exact counted.isSome pos
  | frame f => exact counted.isSome pos
  | below f => exact counted.isSome pos
  | generator g => exact counted.isSome pos

theorem has (acc : Accounted w out) {h : Handle} (owned : h ∈ out) : w.Has h := by
  have := tally_pos owned
  exact acc.has_of_pos (by omega)

theorem has_of_record (acc : Accounted w out) {r : RecordId} {x : Record} {h : Handle}
    (found : w.records.get? r = some x) (held : h ∈ x.held) : w.Has h := by
  have pos := tally_pos (Multiset.mem_coe.mpr held)
  have share := Store.le_weigh (fun x : Record => tally h.detached x.held) w.records r x found
  exact acc.has_of_pos (by simp only [World.inside]; omega)

theorem has_of_frame (acc : Accounted w out) {f : FrameId} {x : Frame} {h : Handle}
    (found : w.frames.get? f = some x) (held : h ∈ x.held) : w.Has h := by
  have pos := tally_pos (Multiset.mem_coe.mpr held)
  have share := Store.le_weigh (fun x : Frame => tally h.detached x.held) w.frames f x found
  exact acc.has_of_pos (by simp only [World.inside]; omega)

theorem has_of_generator (acc : Accounted w out) {g : GenId} {x : Generator} {h : Handle}
    (found : w.generators.get? g = some x) (held : h ∈ x.held) : w.Has h := by
  have pos := tally_pos (Multiset.mem_coe.mpr held)
  have share := Store.le_weigh (fun x : Generator => tally h.detached x.held) w.generators g x found
  exact acc.has_of_pos (by simp only [World.inside]; omega)

theorem has_of_stack (acc : Accounted w out) {f : FrameId} (current : w.stack.current = some f) :
    w.Has (.frame f) := by
  have pos : 0 < tally (.frame f) w.stack.held := by simp [Stack.held, current, tally, Handle.detached]
  exact acc.has_of_pos (by simp only [World.inside, Handle.detached]; omega)

end Accounted

/-! ## The handles inside the world after a change -/

namespace World

variable {w : World ε} (h : Handle)

theorem inside_modifyRecord {r : RecordId} {x : Record} (f : Record → Record)
    (found : w.records.get? r = some x) :
    (w.modifyRecord r f).inside h + tally h x.held = w.inside h + tally h (f x).held := by
  have share := Store.weigh_modify_add (fun x : Record => tally h x.held) w.records r f x found
  simp only [inside, modifyRecord]
  omega

theorem inside_modifyFrame {i : FrameId} {x : Frame} (f : Frame → Frame)
    (found : w.frames.get? i = some x) :
    (w.modifyFrame i f).inside h + tally h x.held = w.inside h + tally h (f x).held := by
  have share := Store.weigh_modify_add (fun x : Frame => tally h x.held) w.frames i f x found
  simp only [inside, modifyFrame]
  omega

theorem inside_modifyGenerator {g : GenId} {x : Generator} (f : Generator → Generator)
    (found : w.generators.get? g = some x) :
    (w.modifyGenerator g f).inside h + tally h x.held = w.inside h + tally h (f x).held := by
  have share := Store.weigh_modify_add (fun x : Generator => tally h x.held) w.generators g f x found
  simp only [inside, modifyGenerator]
  omega

end World

/-! ## Moves -/

namespace Accounted

variable {w v : World ε} {out rest : Multiset Handle}

theorem of_same (acc : Accounted w out) (counts : ∀ h n, w.Counts h n → v.Counts h n)
    (total : ∀ h, v.inside h + tally h rest = w.inside h + tally h out) : Accounted v rest := by
  intro h
  rw [total h]
  exact counts h _ (acc h)

theorem quiet (acc : Accounted w out) (same : w.Quiet v) : Accounted v out := by
  refine acc.of_same (fun h n counted => ?_) fun h => ?_
  · cases h <;> simp_all [World.Counts, same.objects, same.records, same.frames, same.generators]
  · simp only [World.inside, same.objects, same.records, same.frames, same.generators, same.stack]

theorem editRecord (acc : Accounted w out) {r : RecordId} {x : Record} (f : Record → Record)
    (found : w.records.get? r = some x) (owners : (f x).owners = x.owners)
    (even : ↑x.held + out = ↑(f x).held + rest) : Accounted (w.modifyRecord r f) rest := by
  refine acc.of_same (fun h n counted => ?_) fun h => ?_
  · cases h with
    | record s =>
      refine Store.Counted.modify counted found (fun _ owned => ?_) fun _ => rfl
      simpa [OwnedBy, owners] using owned
    | _ => exact counted
  · have share := World.inside_modifyRecord h f found
    have even := congrArg (tally h) even
    simp only [tally_add] at even
    omega

theorem editFrame (acc : Accounted w out) {i : FrameId} {x : Frame} (f : Frame → Frame)
    (found : w.frames.get? i = some x) (owners : (f x).owners = x.owners)
    (even : ↑x.held + out = ↑(f x).held + rest) : Accounted (w.modifyFrame i f) rest := by
  refine acc.of_same (fun h n counted => ?_) fun h => ?_
  · cases h with
    | frame s =>
      refine Store.Counted.modify counted found (fun _ owned => ?_) fun _ => rfl
      simpa [OwnedBy, owners] using owned
    | _ => exact counted
  · have share := World.inside_modifyFrame h f found
    have even := congrArg (tally h) even
    simp only [tally_add] at even
    omega

theorem editGenerator (acc : Accounted w out) {g : GenId} {x : Generator} (f : Generator → Generator)
    (found : w.generators.get? g = some x) (owners : (f x).owners = x.owners)
    (even : ↑x.held + out = ↑(f x).held + rest) : Accounted (w.modifyGenerator g f) rest := by
  refine acc.of_same (fun h n counted => ?_) fun h => ?_
  · cases h with
    | generator s =>
      refine Store.Counted.modify counted found (fun _ owned => ?_) fun _ => rfl
      simpa [OwnedBy, owners] using owned
    | _ => exact counted
  · have share := World.inside_modifyGenerator h f found
    have even := congrArg (tally h) even
    simp only [tally_add] at even
    omega

theorem setStack (acc : Accounted w out) {s : Stack} (even : ↑w.stack.held + out = ↑s.held + rest) :
    Accounted (w.setStack s) rest := by
  refine acc.of_same (fun h n counted => ?_) fun h => ?_
  · cases h <;> exact counted
  · have even := congrArg (tally h) even
    simp only [tally_add] at even
    simp only [World.inside, World.setStack]
    omega

/-- One handle is given back, and what it sets free comes out of the world. -/
theorem of_giveBack {key : Handle} {freed : Multiset Handle} (acc : Accounted w (key ::ₘ out))
    (share : ∀ h, v.inside h + tally h freed = w.inside h)
    (counts : ∀ h n m, (h = key.detached → n = m + 1) → (h ≠ key.detached → m = n) →
      w.Counts h n → v.Counts h m) : Accounted v (freed + out) := by
  intro h
  have same := share h
  refine counts h _ _ (fun here => ?_) (fun there => ?_) (acc h)
  · rw [tally_add, tally_cons, if_pos here]
    omega
  · rw [tally_add, tally_cons, if_neg there]
    omega

/-- There is one more handle, and what the thing holds goes into the world. -/
theorem of_take {key : Handle} {held : Multiset Handle} (acc : Accounted w (held + out))
    (share : ∀ h, v.inside h = w.inside h + tally h held)
    (counts : ∀ h n m, (h = key.detached → m = n + 1) → (h ≠ key.detached → m = n) →
      w.Counts h n → v.Counts h m) : Accounted v (key ::ₘ out) := by
  intro h
  have same := share h
  refine counts h _ _ (fun here => ?_) (fun there => ?_) (acc h)
  · rw [tally_add, tally_cons, if_pos here]
    omega
  · rw [tally_add, tally_cons, if_neg there]
    omega

/-! ## Giving back -/

theorem tally_elim {α : Type} (h : Handle) (order : α → List Handle) (last : Option α) :
    tally h ↑(last.elim [] order) = Store.cellWeight (fun x => tally h (order x)) last := by
  cases last <;> simp [Store.cellWeight]

theorem giveBackRecord {r : RecordId} (acc : Accounted w (.record r ::ₘ out)) :
    Accounted (w.giveBackRecord r).1 (↑(w.giveBackRecord r).2 + out) := by
  refine acc.of_giveBack (fun h => ?_) fun h n m here there counted => ?_
  · have share := Store.weigh_disown (fun x : Record => tally h x.held) w.records Record.owners
      (fun x => { x with owners := x.owners - 1 }) r fun _ => rfl
    simp only [World.giveBackRecord, World.inside, tally_elim]
    omega
  · cases h with
    | record s =>
      exact Store.Counted.disown counted (fun _ => rfl) (fun eq => here (congrArg _ eq.symm))
        fun ne => there fun eq => ne (Handle.record.inj eq).symm
    | _ => exact there (by simp [Handle.detached]) ▸ counted

theorem giveBackFrame {k : Handle} {f : FrameId} {order : Frame → List Handle} (on : k.detached = .frame f)
    (all : ∀ x, (order x : Multiset Handle) = ↑x.held) (acc : Accounted w (k ::ₘ out)) :
    Accounted (w.giveBackFrame f order).1 (↑(w.giveBackFrame f order).2 + out) := by
  refine acc.of_giveBack (fun h => ?_) fun h n m here there counted => ?_
  · have share := Store.weigh_disown (fun x : Frame => tally h x.held) w.frames Frame.owners
      (fun x => { x with owners := x.owners - 1 }) f fun _ => rfl
    simp only [World.giveBackFrame, World.inside, tally_elim, all]
    omega
  · rw [on] at here there
    cases h with
    | frame s =>
      exact Store.Counted.disown counted (fun _ => rfl) (fun eq => here (congrArg _ eq.symm))
        fun ne => there fun eq => ne (Handle.frame.inj eq).symm
    | _ => exact there (by simp) ▸ counted

theorem giveBackGenerator {g : GenId} (acc : Accounted w (.generator g ::ₘ out)) :
    Accounted (w.giveBackGenerator g).1 (↑(w.giveBackGenerator g).2 + out) := by
  refine acc.of_giveBack (fun h => ?_) fun h n m here there counted => ?_
  · have share := Store.weigh_disown (fun x : Generator => tally h x.held) w.generators Generator.owners
      (fun x => { x with owners := x.owners - 1 }) g fun _ => rfl
    simp only [World.giveBackGenerator, World.inside, tally_elim]
    omega
  · cases h with
    | generator s =>
      exact Store.Counted.disown counted (fun _ => rfl) (fun eq => here (congrArg _ eq.symm))
        fun ne => there fun eq => ne (Handle.generator.inj eq).symm
    | _ => exact there (by simp [Handle.detached]) ▸ counted

end Accounted

namespace World

variable (w : World ε)

theorem traceCount_eq (m : String) (c : Count) :
    w.traceCount m c = { w with events := (w.traceCount m c).events } := by
  unfold traceCount; split <;> rfl

theorem setHeader_noteRelease_eq (o : ObjId) (k : Header) : ∃ total events,
    (w.noteRelease k).setHeader o k =
      { w with
        objects := w.objects.modify o fun x => { x with header := k }
        refTotal := total
        events := events } :=
  ⟨_, _, by unfold noteRelease; rw [traceCount_eq]; rfl⟩

theorem eraseObject_noteDeath_eq (o : ObjId) (x : Object) (k : Header) : ∃ total events deaths,
    ((w.noteRelease k).noteDeath x k).eraseObject o =
      { w with
        objects := w.objects.erase o
        refTotal := total
        events := events
        deaths := deaths } := by
  refine ⟨(w.noteRelease k).refTotal, (w.noteRelease k).events, ((w.noteRelease k).noteDeath x k).deaths, ?_⟩
  unfold noteDeath noteRelease
  rw [traceCount_eq]
  split <;> rfl

theorem setHeader_noteRetain_eq (o : ObjId) (k : Header) : ∃ total events,
    (w.noteRetain k).setHeader o k =
      { w with
        objects := w.objects.modify o fun x => { x with header := k }
        refTotal := total
        events := events } :=
  ⟨_, _, by unfold noteRetain; rw [traceCount_eq]; rfl⟩

end World

namespace Accounted

variable {w v : World ε} {out rest : Multiset Handle}

/-- What giving back an object does, where the accounts are right: no count goes below zero, and an object
dies with the last handle on it. -/
theorem giveBackObject_cases {o : ObjId} (acc : Accounted w (.object o ::ₘ out)) :
    ∃ x, w.objects.get? o = some x ∧
      (x.header.isImmortal = true ∧ w.giveBackObject o = (w, []) ∨
       x.header.isImmortal = false ∧ x.header.count.val = 1 ∧
        (∃ total events deaths, w.giveBackObject o =
          ({ w with objects := w.objects.erase o, refTotal := total, events := events, deaths := deaths },
            x.held)) ∨
       x.header.isImmortal = false ∧ ∃ k : Header, k.count.val = x.header.count.val - 1 ∧
        1 < x.header.count.val ∧
        ∃ total events, w.giveBackObject o =
          ({ w with
             objects := w.objects.modify o (fun x => { x with header := k })
             refTotal := total
             events := events }, [])) := by
  obtain ⟨x, found⟩ : ∃ x, w.objects.get? o = some x :=
    Option.isSome_iff_exists.mp (acc.has (h := .object o) (Multiset.mem_cons_self _ _))
  have owned : x.Owned _ := (Store.Counted.of_some found).mp (acc (.object o))
  refine ⟨x, found, ?_⟩
  -- a mortal object has a count of at least one, so the release finds it alive
  simp only [World.giveBackObject, found]
  cases immortal : x.header.isImmortal with
  | true => exact .inl ⟨rfl, by rw [Header.release_of_immortal immortal]⟩
  | false =>
    obtain ⟨count, some, -, observes⟩ := owned.of_mortal immortal
    refine .inr ?_
    by_cases last : x.header.count.val = 1
    · obtain ⟨k, released, -⟩ := Header.release_of_one immortal last
      obtain ⟨total, events, deaths, eq⟩ := w.eraseObject_noteDeath_eq o x k
      refine .inl ⟨rfl, last, total, events, deaths, ?_⟩
      simp only [released, World.bury_of_observes _ o x k observes, eq]
    · have more : 1 < x.header.count.val := by omega
      obtain ⟨k, released, count⟩ := Header.release_of_one_lt immortal more
      obtain ⟨total, events, eq⟩ := w.setHeader_noteRelease_eq o k
      exact .inr ⟨rfl, k, count, more, total, events, by rw [released, ← eq]⟩

theorem giveBackObject {o : ObjId} (acc : Accounted w (.object o ::ₘ out)) :
    Accounted (w.giveBackObject o).1 (↑(w.giveBackObject o).2 + out) ∧
      (w.giveBackObject o).1.fault = w.fault := by
  obtain ⟨x, found, ⟨immortal, eq⟩ | ⟨mortal, one, total, events, deaths, eq⟩ |
    ⟨mortal, k, count, more, total, events, eq⟩⟩ := acc.giveBackObject_cases
  · rw [eq]
    refine ⟨acc.of_giveBack (fun h => by simp) fun h n m here there counted => ?_, rfl⟩
    by_cases own : h = .object o
    · subst own
      exact (Store.Counted.of_some found).mpr (.inl immortal)
    · exact there own ▸ counted
  · rw [eq]
    refine ⟨acc.of_giveBack (fun h => ?_) fun h n m here there counted => ?_, rfl⟩
    · have share := Store.weigh_erase (fun x : Object => tally h x.held) w.objects o x found
      simp only [World.inside]
      omega
    · cases h with
      | object p =>
        refine Store.Counted.erase counted (fun own => ?_) fun other =>
          there fun own => other (Handle.object.inj own).symm
        subst own
        have owned : x.Owned n := (Store.Counted.of_some found).mp counted
        have := owned.of_mortal mortal
        have := here rfl
        omega
      | _ => exact there (by simp [Handle.detached]) ▸ counted
  · rw [eq]
    refine ⟨acc.of_giveBack (fun h => ?_) fun h n m here there counted => ?_, rfl⟩
    · have share := Store.weigh_modify (fun x : Object => tally h x.held) w.objects o
        (fun x => { x with header := k }) fun _ => rfl
      simp [World.inside, share]
    · cases h with
      | object p =>
        refine Store.Counted.modify counted found (fun own owned => ?_) fun other =>
          there fun own => other (Handle.object.inj own).symm
        obtain ⟨has, -, bound, observes⟩ := Object.Owned.of_mortal owned mortal
        have := here (congrArg _ own.symm)
        exact .inr ⟨by simp only []; omega, by omega, by omega, observes⟩
      | _ => exact there (by simp [Handle.detached]) ▸ counted

theorem giveBack {h : Handle} (acc : Accounted w (h ::ₘ out)) :
    Accounted (w.giveBack h).1 (↑(w.giveBack h).2 + out) ∧ (w.giveBack h).1.fault = w.fault := by
  cases h with
  | object o => exact acc.giveBackObject
  | record r => exact ⟨acc.giveBackRecord, rfl⟩
  | frame f =>
    refine ⟨acc.giveBackFrame rfl fun x => ?_, rfl⟩
    exact Multiset.coe_eq_coe.mpr List.perm_append_comm
  | below f => exact ⟨acc.giveBackFrame rfl fun x => rfl, rfl⟩
  | generator g => exact ⟨acc.giveBackGenerator, rfl⟩

/-! ## Taking -/

theorem retain {o : ObjId} (acc : Accounted w out) (has : w.Has (.object o)) :
    Accounted (w.retain o) (.object o ::ₘ out) ∧ (w.retain o).fault = w.fault := by
  obtain ⟨x, found⟩ := Option.isSome_iff_exists.mp has
  have acc : Accounted w (0 + out) := by rwa [zero_add]
  unfold World.retain
  simp only [found, Option.bind_some]
  cases retained : x.header.retain with
  | none =>
    have immortal : x.header.isImmortal = true := by
      cases mortal : x.header.isImmortal with
      | true => rfl
      | false =>
        obtain ⟨k, grown, -⟩ := Header.retain_of_mortal mortal
        rw [retained] at grown
        cases grown
    refine ⟨acc.of_take (fun h => by simp) fun h n m here there counted => ?_, rfl⟩
    by_cases own : h = .object o
    · subst own
      exact (Store.Counted.of_some found).mpr (.inl immortal)
    · exact there own ▸ counted
  | some k =>
    obtain ⟨total, events, eq⟩ := w.setHeader_noteRetain_eq o k
    show Accounted ((w.noteRetain k).setHeader o k) _ ∧ ((w.noteRetain k).setHeader o k).fault = _
    rw [eq]
    refine ⟨acc.of_take (fun h => ?_) fun h n m here there counted => ?_, rfl⟩
    · have share := Store.weigh_modify (fun x : Object => tally h x.held) w.objects o
        (fun x => { x with header := k }) fun _ => rfl
      simp [World.inside, share]
    · cases h with
      | object p =>
        refine Store.Counted.modify counted found (fun own owned => ?_) fun other =>
          there fun own => other (Handle.object.inj own).symm
        have more := here (congrArg _ own.symm)
        cases mortal : x.header.isImmortal with
        | true => exact .inl (Header.isImmortal_of_retain mortal retained)
        | false =>
          obtain ⟨counted, some, bound, observes⟩ := Object.Owned.of_mortal owned mortal
          obtain ⟨k', grown, next⟩ := Header.retain_of_mortal mortal
          rw [retained] at grown
          cases grown
          -- the count may reach the bound here, and the object is immortal from then on
          cases saved : k.isImmortal with
          | true => exact .inl saved
          | false =>
            have below := Header.val_lt_of_mortal saved
            exact .inr ⟨by simp only []; omega, by omega, by omega, observes⟩
      | _ => exact there (by simp [Handle.detached]) ▸ counted

theorem holdRecord {r : RecordId} (acc : Accounted w out) (has : w.Has (.record r)) :
    Accounted (w.holdRecord r) (.record r ::ₘ out) := by
  have acc : Accounted w (0 + out) := by rwa [zero_add]
  refine acc.of_take (fun h => ?_) fun h n m here other counted => ?_
  · have share := Store.weigh_modify (fun x : Record => tally h x.held) w.records r
      (fun x => { x with owners := x.owners + 1 }) fun _ => rfl
    simp [World.holdRecord, World.modifyRecord, World.inside, share]
  · cases h with
    | record s =>
      have there : (w.records.get? r).isSome := has
      refine Store.Counted.own (s := w.records) (i := r) counted (fun _ => rfl) there ?_ ?_
      · exact fun eq => here (congrArg _ eq.symm)
      · exact fun ne => other fun eq => ne (Handle.record.inj eq).symm
    | _ =>
      rw [other (by simp [Handle.detached])]
      exact counted

theorem holdFrame {k : Handle} {f : FrameId} (on : k.detached = .frame f) (acc : Accounted w out)
    (has : w.Has (.frame f)) : Accounted (w.holdFrame f) (k ::ₘ out) := by
  have acc : Accounted w (0 + out) := by rwa [zero_add]
  refine acc.of_take (fun h => ?_) fun h n m here other counted => ?_
  · have share := Store.weigh_modify (fun x : Frame => tally h x.held) w.frames f
      (fun x => { x with owners := x.owners + 1 }) fun _ => rfl
    simp [World.holdFrame, World.modifyFrame, World.inside, share]
  · rw [on] at here other
    cases h with
    | frame s =>
      have there : (w.frames.get? f).isSome := has
      refine Store.Counted.own (s := w.frames) (i := f) counted (fun _ => rfl) there ?_ ?_
      · exact fun eq => here (congrArg _ eq.symm)
      · exact fun ne => other fun eq => ne (Handle.frame.inj eq).symm
    | _ =>
      rw [other (by simp)]
      exact counted

theorem holdGenerator {g : GenId} (acc : Accounted w out) (has : w.Has (.generator g)) :
    Accounted (w.holdGenerator g) (.generator g ::ₘ out) := by
  have acc : Accounted w (0 + out) := by rwa [zero_add]
  refine acc.of_take (fun h => ?_) fun h n m here other counted => ?_
  · have share := Store.weigh_modify (fun x : Generator => tally h x.held) w.generators g
      (fun x => { x with owners := x.owners + 1 }) fun _ => rfl
    simp [World.holdGenerator, World.modifyGenerator, World.inside, share]
  · cases h with
    | generator s =>
      have there : (w.generators.get? g).isSome := has
      refine Store.Counted.own (s := w.generators) (i := g) counted (fun _ => rfl) there ?_ ?_
      · exact fun eq => here (congrArg _ eq.symm)
      · exact fun ne => other fun eq => ne (Handle.generator.inj eq).symm
    | _ =>
      rw [other (by simp [Handle.detached])]
      exact counted

theorem hold {h : Handle} (acc : Accounted w out) (has : w.Has h) :
    Accounted (w.hold h) (h ::ₘ out) ∧ (w.hold h).fault = w.fault := by
  cases h with
  | object o => exact acc.retain has
  | record r => exact ⟨acc.holdRecord has, rfl⟩
  | frame f => exact ⟨acc.holdFrame rfl has, rfl⟩
  | below f => exact ⟨acc.holdFrame rfl has, rfl⟩
  | generator g => exact ⟨acc.holdGenerator has, rfl⟩

/-! ## Making -/

theorem addObject {x : Object} (acc : Accounted w (↑x.held + out))
    (born : x.header = .fresh ∧ x.type.destructor.Observes ∨ x.header = .immortal) :
    Accounted (w.addObject x).2 (.object w.objects.next ::ₘ out) := by
  refine acc.of_take (fun h => ?_) fun h n m here there counted => ?_
  · simp only [World.addObject, World.inside, Store.weigh_insert]
    omega
  · cases h with
    | object p =>
      refine Store.Counted.insert counted (fun new none => ?_) fun old => there fun eq => old (Handle.object.inj eq)
      have one := here (congrArg _ new)
      rcases born with ⟨fresh, observes⟩ | immortal
      · exact .inr ⟨by rw [fresh, one, none]; rfl, by omega, by omega, observes⟩
      · exact .inl (by rw [immortal]; exact Header.isImmortal_immortal)
    | _ => exact there (by simp [Handle.detached]) ▸ counted

theorem addRecord {x : Record} (acc : Accounted w (↑x.held + out)) (single : x.owners = 1) :
    Accounted (w.addRecord x).2 (.record w.records.next ::ₘ out) := by
  refine acc.of_take (fun h => ?_) fun h n m here there counted => ?_
  · simp only [World.addRecord, World.inside, Store.weigh_insert]
    omega
  · cases h with
    | record p =>
      refine Store.Counted.insert counted (fun new none => ?_) fun old => there fun eq => old (Handle.record.inj eq)
      have one := here (congrArg _ new)
      exact ⟨by omega, by omega⟩
    | _ => exact there (by simp [Handle.detached]) ▸ counted

theorem addFrame {x : Frame} (acc : Accounted w (↑x.held + out)) (single : x.owners = 1) :
    Accounted (w.addFrame x).2 (.frame w.frames.next ::ₘ out) := by
  refine acc.of_take (fun h => ?_) fun h n m here there counted => ?_
  · simp only [World.addFrame, World.inside, Store.weigh_insert]
    omega
  · cases h with
    | frame p =>
      refine Store.Counted.insert counted (fun new none => ?_) fun old => there fun eq => old (Handle.frame.inj eq)
      have one := here (congrArg _ new)
      exact ⟨by omega, by omega⟩
    | _ => exact there (by simp [Handle.detached]) ▸ counted

theorem addGenerator {x : Generator} (acc : Accounted w (↑x.held + out)) (single : x.owners = 1) :
    Accounted { w with generators := w.generators.insert x } (.generator w.generators.next ::ₘ out) := by
  refine acc.of_take (fun h => ?_) fun h n m here there counted => ?_
  · simp only [World.inside, Store.weigh_insert]
    omega
  · cases h with
    | generator p =>
      refine Store.Counted.insert counted (fun new none => ?_) fun old =>
        there fun eq => old (Handle.generator.inj eq)
      have one := here (congrArg _ new)
      exact ⟨by omega, by omega⟩
    | _ => exact there (by simp [Handle.detached]) ▸ counted

/-! ## Immortal objects -/

theorem markImmortal (acc : Accounted w out) (o : ObjId) : Accounted (w.markImmortal o) out := by
  refine acc.of_same (fun h n counted => ?_) fun h => ?_
  · cases h with
    | object p =>
      cases found : w.objects.get? o with
      | none =>
        have same : w.markImmortal o = w := by
          simp [World.markImmortal, World.setHeader, World.modifyObject, Store.modify_of_none _ _ found]
        rw [same]
        exact counted
      | some x =>
        exact Store.Counted.modify counted found (fun _ _ => .inl Header.isImmortal_immortal) fun _ => rfl
    | _ => exact counted
  · have share := Store.weigh_modify (fun x : Object => tally h x.held) w.objects o
      (fun x => { x with header := .immortal }) fun _ => rfl
    simp only [World.markImmortal, World.setHeader, World.modifyObject, World.inside, share]

theorem mint (acc : Accounted w out) {o : ObjId} (there : w.Immortal o) : Accounted w (.object o ::ₘ out) := by
  obtain ⟨x, found, immortal⟩ := there
  intro h
  by_cases own : h = .object o
  · subst own
    exact (Store.Counted.of_some found).mpr (.inl immortal)
  · rw [tally_cons, if_neg (by simpa [Handle.detached] using own)]
    exact acc h

end Accounted

theorem Move.accounted {F : Footprint} {w v : World ε} {out rest : Multiset Handle}
    (move : Move F w out v rest) (acc : Accounted w out) :
    Accounted v rest ∧ (F.faults ∨ v.fault = w.fault) := by
  cases move with
  | quiet same => exact ⟨acc.quiet same, .inr same.fault⟩
  | fault allowed x => exact ⟨acc.of_same (fun h n counted => by cases h <;> exact counted) fun _ => rfl, .inl allowed⟩
  | relabel same => exact ⟨acc.of_same (fun _ _ counted => counted) fun h => by rw [tally_of_map_eq h same], .inr rfl⟩
  | giveBack h => exact acc.giveBack.imp_right .inr
  | hold has _ => exact (acc.hold has).imp_right .inr
  | addObject born => exact ⟨acc.addObject born, .inr rfl⟩
  | markImmortal o _ => exact ⟨acc.markImmortal o, .inr rfl⟩
  | mint there => exact ⟨acc.mint there, .inr rfl⟩
  | addRecord one => exact ⟨acc.addRecord one, .inr rfl⟩
  | addFrame one _ _ => exact ⟨acc.addFrame one, .inr rfl⟩
  | addGenerator _ one => exact ⟨acc.addGenerator one, .inr rfl⟩
  | editRecord f found owners _ even => exact ⟨acc.editRecord f found owners even, .inr rfl⟩
  | editFrame f found owners _ _ even => exact ⟨acc.editFrame f found owners even, .inr rfl⟩
  | editGenerator f found owners _ _ _ _ even => exact ⟨acc.editGenerator f found owners even, .inr rfl⟩
  | setStack _ even => exact ⟨acc.setStack even, .inr rfl⟩

theorem Moves.accounted {F : Footprint} {w v : World ε} {out rest : Multiset Handle}
    (moves : Moves F w out v rest) (acc : Accounted w out) :
    Accounted v rest ∧ (F.faults ∨ v.fault = w.fault) := by
  induction moves with
  | refl => exact ⟨acc, .inr rfl⟩
  | tail _ last ih =>
    obtain ⟨before, calm⟩ := ih
    obtain ⟨after, calm'⟩ := last.accounted before
    refine ⟨after, ?_⟩
    rcases calm with allowed | same
    · exact .inl allowed
    · exact calm'.imp_right fun same' => same'.trans same

end Activation
