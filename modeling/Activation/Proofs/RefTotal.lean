import Activation.Proofs.Changes
import Activation.Proofs.Notes
import Mathlib.Algebra.BigOperators.Intervals
import Mathlib.Algebra.BigOperators.Group.Finset.Basic

/-! # The reference total

The total counts retains and releases that were stored. It owes every object that is there its count, unless the
object is exempt from counting: one that was born immortal is owed nothing, and one that was marked later is owed
the count it had then, whatever its header says now.

* `Exemption`: how an object came to be exempt; the runs keep a book of it.
* `World.owed`: the sum over all objects.
* `Change.balances`: no change of the library moves the total without moving what is owed.
* `refTotal_balances`: the whole of it, for every run.
-/

namespace Activation
set_option autoImplicit false

/-! ## Sums over a store -/

namespace Store

variable {α : Type}

def sumOf (f : Nat → α → Int) (s : Store α) : Int := (s.entries.map fun e => f e.1 e.2).sum

/-- What one identity adds to a sum. -/
def addend (f : Nat → α → Int) (s : Store α) (i : Nat) : Int := ((s.get? i).map (f i)).getD 0

theorem sum_zipIdx (f : Nat → α → Int) (cells : List (Option α)) :
    (((cells.zipIdx).filterMap fun c => c.1.map fun a => (c.2, a)).map fun e => f e.1 e.2).sum =
      ∑ i ∈ Finset.range cells.length, ((cells[i]?).join.map (f i)).getD 0 := by
  induction cells using List.reverseRecOn with
  | nil => simp
  | append_singleton cells c ih =>
    have front : ∀ i ∈ Finset.range cells.length,
        ((((cells ++ [c])[i]?).join.map (f i)).getD 0) = ((cells[i]?).join.map (f i)).getD 0 := by
      intro i member
      rw [List.getElem?_append_left (Finset.mem_range.mp member)]
    rw [List.length_append, List.length_singleton, Finset.sum_range_succ, Finset.sum_congr rfl front, ← ih,
      List.zipIdx_append, List.filterMap_append, List.map_append, List.sum_append]
    cases c <;> simp

theorem sumOf_eq (f : Nat → α → Int) (s : Store α) :
    s.sumOf f = ∑ i ∈ Finset.range s.next, s.addend f i := by
  simpa [sumOf, entries, next, addend, get?] using sum_zipIdx f s.cells.toList

theorem sumOf_congr {f g : Nat → α → Int} {s : Store α} (same : ∀ i a, s.get? i = some a → f i a = g i a) :
    s.sumOf f = s.sumOf g := by
  rw [sumOf_eq, sumOf_eq]
  refine Finset.sum_congr rfl fun i _ => ?_
  unfold addend
  cases found : s.get? i with
  | none => rfl
  | some a => simp [same i a found]

@[simp] theorem sumOf_insert (f : Nat → α → Int) (s : Store α) (a : α) :
    (s.insert a).sumOf f = s.sumOf f + f s.next a := by
  have old : ∀ i ∈ Finset.range s.next, (s.insert a).addend f i = s.addend f i := by
    intro i member
    have other : i ≠ s.next := Nat.ne_of_lt (Finset.mem_range.mp member)
    rw [addend, addend, get?_insert_of_ne s a other]
  rw [sumOf_eq, sumOf_eq, next_insert, Finset.sum_range_succ, Finset.sum_congr rfl old, addend,
    get?_insert_next]
  rfl

/-- Two sums differ by the addends of one identity, if all the others are the same. -/
theorem sumOf_of_eq_off {f g : Nat → α → Int} {s t : Store α} {i : Nat} (same : t.next = s.next)
    (off : ∀ j, j ≠ i → t.addend f j = s.addend g j) :
    t.sumOf f - t.addend f i = s.sumOf g - s.addend g i := by
  have rest : ∑ j ∈ (Finset.range s.next).erase i, t.addend f j =
      ∑ j ∈ (Finset.range s.next).erase i, s.addend g j :=
    Finset.sum_congr rfl fun j member => off j (Finset.ne_of_mem_erase member)
  rw [sumOf_eq, sumOf_eq, same]
  by_cases inside : i ∈ Finset.range s.next
  · have after := Finset.add_sum_erase (Finset.range s.next) (fun j => t.addend f j) inside
    have before := Finset.add_sum_erase (Finset.range s.next) (fun j => s.addend g j) inside
    omega
  · -- an identity that was never given out adds nothing on either side
    have late : s.next ≤ i := by simpa using inside
    have gone : ∀ (u : Store α) (k : Nat → α → Int), u.next = s.next → u.addend k i = 0 := by
      intro u k long
      cases found : u.get? i with
      | none => simp [addend, found]
      | some a =>
        have := u.lt_next found
        omega
    rw [Finset.erase_eq_of_notMem inside] at rest
    rw [gone t f same, gone s g rfl, rest]

theorem sumOf_modify (f : Nat → α → Int) {s : Store α} {i : Nat} {a : α} (g : α → α)
    (found : s.get? i = some a) : (s.modify i g).sumOf f = s.sumOf f - f i a + f i (g a) := by
  have changed : (s.modify i g).sumOf f - (s.modify i g).addend f i = s.sumOf f - s.addend f i :=
    sumOf_of_eq_off (next_modify s i g) fun j other => by
      rw [addend, addend, get?_modify, if_neg (Ne.symm other)]
  have after : (s.modify i g).addend f i = f i (g a) := by simp [addend, get?_modify, found]
  have before : s.addend f i = f i a := by simp [addend, found]
  omega

theorem sumOf_erase (f : Nat → α → Int) {s : Store α} {i : Nat} {a : α} (found : s.get? i = some a) :
    (s.erase i).sumOf f = s.sumOf f - f i a := by
  have changed : (s.erase i).sumOf f - (s.erase i).addend f i = s.sumOf f - s.addend f i :=
    sumOf_of_eq_off (next_erase s i) fun j other => by
      rw [addend, addend, get?_erase, if_neg (Ne.symm other)]
  have after : (s.erase i).addend f i = 0 := by simp [addend, get?_erase]
  have before : s.addend f i = f i a := by simp [addend, found]
  omega

theorem sumOf_eq_zero {f : Nat → α → Int} {s : Store α} (zero : ∀ i a, s.get? i = some a → f i a = 0) :
    s.sumOf f = 0 := by
  rw [sumOf_eq]
  refine Finset.sum_eq_zero fun i _ => ?_
  unfold addend
  cases found : s.get? i with
  | none => rfl
  | some a => simp [zero i a found]

end Store

/-! ## Headers -/

namespace Header

/-- A release that stores anything stores one less. -/
theorem val_of_release {h next : Header}
    (released : (∃ r, h.release = .stored next r) ∨ h.release = .negative next) :
    next.count.val = h.count.val - 1 := by
  have stored : Encoding.native.decremented h.count = .stored next.count := by
    unfold release at released
    split at released
    · simp at released
    · simp at released
    · next c stored =>
      have same : Header.mk c = next := by
        split at released
        · simpa using released
        · split at released <;> simpa using released
      rw [stored, ← same]
  exact (Encoding.decremented_eq_stored_iff.mp stored).2

end Header

/-! ## What the total owes -/

variable {ε : Type}

@[simp] theorem World.refTotal_traceCount (w : World ε) (m : String) (c : Count) :
    (w.traceCount m c).refTotal = w.refTotal := by
  unfold World.traceCount
  split <;> rfl

@[simp] theorem World.refTotal_noteRelease (w : World ε) (h : Header) :
    (w.noteRelease h).refTotal = w.refTotal - 1 := by
  rw [World.noteRelease, World.refTotal_traceCount]

@[simp] theorem World.refTotal_noteDeath (w : World ε) (x : Object) (h : Header) :
    (w.noteDeath x h).refTotal = w.refTotal := by
  unfold World.noteDeath
  split <;> rfl

inductive Exemption where
  | born
  /-- Marked while the object had this count. -/
  | marked (count : Int)
deriving DecidableEq, Repr

abbrev Book := ObjId → Option Exemption

/-- What the total owes an object that is there. -/
def Object.share (x : Object) : Option Exemption → Int
  | none => x.header.count.val
  | some .born => 0
  | some (.marked count) => count

def World.owed (w : World ε) (book : Book) : Int := w.objects.sumOf fun o x => x.share (book o)

/-- The objects of the book are there, and exempt. -/
def World.Exempts (w : World ε) (book : Book) : Prop :=
  ∀ o e, book o = some e → ∃ x, w.objects.get? o = some x ∧ x.header = .immortal

/-- A step is entered in the book: an object that is born immortal, or marked for the first time. -/
def Label.enroll (w : World ε) (l : Label) (book : Book) : Book :=
  match l with
  | .op (.newImmortal _ _) => Function.update book w.objects.next (some .born)
  | .op (.markImmortal o) =>
    match book o with
    | none => Function.update book o (some (.marked (w.object o).header.count.val))
    | some _ => book
  | _ => book

/-- Nobody writes to the total but the library. -/
def Label.KeepsTotal (c : Config ε) (l : Label) (d : Config ε) : Prop :=
  match l with
  | .quiet => d.world.refTotal = c.world.refTotal
  | _ => True

instance Label.decidableKeepsTotal (c : Config ε) (l : Label) (d : Config ε) : Decidable (l.KeepsTotal c d) := by
  unfold Label.KeepsTotal
  split <;> infer_instance

/-- Between the two worlds the total has moved as far as what is owed, by the book of each. -/
structure Balanced (book : Book) (w : World ε) (later : Book) (v : World ε) : Prop where
  exempts : v.Exempts later
  total : v.refTotal - v.owed later = w.refTotal - w.owed book

namespace Balanced

variable {book later last : Book} {w v u : World ε} {o : ObjId} {x : Object}

theorem trans (first : Balanced book w later v) (second : Balanced later v last u) : Balanced book w last u :=
  ⟨second.exempts, second.total.trans first.total⟩

theorem of_eq (exempts : w.Exempts book) (objects : v.objects = w.objects) (refTotal : v.refTotal = w.refTotal) :
    Balanced book w book v := by
  refine ⟨?_, ?_⟩
  · rw [World.Exempts, objects]
    exact exempts
  · rw [World.owed, World.owed, objects, refTotal]

/-- An object with any other header is not in the book. -/
theorem unlisted (exempts : w.Exempts book) (found : w.objects.get? o = some x) (counted : x.header ≠ .immortal) :
    book o = none := by
  cases listed : book o with
  | none => rfl
  | some e =>
    obtain ⟨y, there, exempt⟩ := exempts o e listed
    rw [found] at there
    cases there
    exact absurd exempt counted

theorem unlisted_next (exempts : w.Exempts book) : book w.objects.next = none := by
  cases listed : book w.objects.next with
  | none => rfl
  | some e =>
    obtain ⟨y, there, -⟩ := exempts _ e listed
    exact absurd (w.objects.lt_next there) (Nat.lt_irrefl _)

/-- A change to an object that is not in the book leaves those in the book alone. -/
theorem exempts_off (exempts : w.Exempts book) (free : book o = none)
    (off : ∀ p, p ≠ o → v.objects.get? p = w.objects.get? p) : v.Exempts book := by
  intro p e listed
  obtain ⟨y, there, exempt⟩ := exempts p e listed
  have other : p ≠ o := by
    rintro rfl
    rw [free] at listed
    cases listed
  exact ⟨y, by rw [off p other, there], exempt⟩

theorem of_setHeader (exempts : w.Exempts book) (found : w.objects.get? o = some x)
    (counted : x.header ≠ .immortal) (next : Header)
    (objects : v.objects = w.objects.modify o fun y => { y with header := next })
    (refTotal : v.refTotal = w.refTotal - x.header.count.val + next.count.val) : Balanced book w book v := by
  have free := unlisted exempts found counted
  refine ⟨exempts_off exempts free fun p other => ?_, ?_⟩
  · rw [objects, Store.get?_modify, if_neg (Ne.symm other)]
  · rw [World.owed, World.owed, objects, Store.sumOf_modify _ _ found, refTotal, free]
    simp only [Object.share]
    omega

theorem of_erase (exempts : w.Exempts book) (found : w.objects.get? o = some x)
    (counted : x.header ≠ .immortal) (objects : v.objects = w.objects.erase o)
    (refTotal : v.refTotal = w.refTotal - x.header.count.val) : Balanced book w book v := by
  have free := unlisted exempts found counted
  refine ⟨exempts_off exempts free fun p other => ?_, ?_⟩
  · rw [objects, Store.get?_erase, if_neg (Ne.symm other)]
  · rw [World.owed, World.owed, objects, Store.sumOf_erase _ found, refTotal, free]
    simp only [Object.share]
    omega

theorem newObject (exempts : w.Exempts book) (type : TypeInfo) (payload : Payload) :
    Balanced book w book (w.newObject type payload).2 := by
  have free := unlisted_next exempts
  have one : (⟨.fresh, type, payload⟩ : Object).share none = 1 := rfl
  refine ⟨exempts_off exempts free fun p other => Store.get?_insert_of_ne _ _ other, ?_⟩
  simp only [World.owed, World.newObject, World.addObject, Store.sumOf_insert, free, one]
  omega

theorem retain (exempts : w.Exempts book) (o : ObjId) : Balanced book w book (w.retain o) := by
  unfold World.retain
  split
  · exact of_eq exempts rfl rfl
  · next next retained =>
    obtain ⟨x, found, stored⟩ := Option.bind_eq_some_iff.mp retained
    have counted : x.header ≠ .immortal := by
      intro exempt
      have skipped : Header.immortal.retain = none := by decide
      rw [exempt, skipped] at stored
      cases stored
    have more := Header.val_of_retain stored
    refine of_setHeader exempts found counted next ?_ ?_
    · simp [World.setHeader, World.modifyObject, World.noteRetain]
    · simp only [World.setHeader, World.modifyObject, World.noteRetain, World.refTotal_traceCount]
      omega

theorem giveBackObject (exempts : w.Exempts book) (o : ObjId) :
    Balanced book w book (w.giveBackObject o).1 := by
  unfold World.giveBackObject
  split
  · exact of_eq exempts rfl rfl
  next x found =>
  have counted : x.header.release ≠ .skipped → x.header ≠ .immortal := by
    intro released exempt
    have skipped : Header.immortal.release = .skipped := by decide
    exact released (by rw [exempt, skipped])
  have stored : ∀ next, ((∃ r, x.header.release = .stored next r) ∨ x.header.release = .negative next) →
      Balanced book w book ((w.noteRelease next).setHeader o next) := by
    intro next released
    have less := Header.val_of_release released
    refine of_setHeader exempts found (counted ?_) next ?_ ?_
    · rcases released with ⟨r, released⟩ | released <;> simp [released]
    · simp [World.setHeader, World.modifyObject]
    · simp only [World.setHeader, World.modifyObject, World.refTotal_noteRelease]
      omega
  split
  · exact of_eq exempts rfl rfl
  · rw [World.panic_eq]
    exact of_eq exempts rfl rfl
  · next next released =>
    have sunk := stored next (.inr released)
    rw [World.sink_eq]
    exact sunk.trans (of_eq sunk.exempts rfl rfl)
  · next next released => exact stored next (.inl ⟨_, released⟩)
  · next next released =>
    have less := Header.val_of_release (.inl ⟨_, released⟩)
    have zero := (Header.of_release_dead released).2
    unfold World.bury
    split
    · have kept := stored next (.inl ⟨_, released⟩)
      rw [World.panic_eq]
      exact kept.trans (of_eq kept.exempts rfl rfl)
    · refine of_erase exempts found (counted (by simp [released])) ?_ ?_
      · simp [World.eraseObject]
      · simp only [World.eraseObject, World.refTotal_noteDeath, World.refTotal_noteRelease]
        omega

theorem newImmortal (exempts : w.Exempts book) (type : TypeInfo) (payload : Payload) :
    Balanced book w (Function.update book w.objects.next (some .born)) (w.newImmortal type payload).2 := by
  refine ⟨fun p e listed => ?_, ?_⟩
  · by_cases new : p = w.objects.next
    · subst new
      exact ⟨_, Store.get?_insert_next _ _, rfl⟩
    · rw [Function.update_of_ne new] at listed
      exact exempts_off exempts (unlisted_next exempts) (fun p other => Store.get?_insert_of_ne _ _ other) p e listed
  · have same : w.owed (Function.update book w.objects.next (some .born)) = w.owed book := by
      refine Store.sumOf_congr fun p y there => ?_
      rw [Function.update_of_ne (Nat.ne_of_lt (w.objects.lt_next there))]
    have nothing : (⟨.immortal, type, payload⟩ : Object).share (some .born) = 0 := rfl
    simp only [World.owed] at same
    simp only [World.owed, World.newImmortal, World.addObject, Store.sumOf_insert, Function.update_self, nothing,
      same]
    omega

/-- An object is marked, and the book owes it what it was owed before. -/
theorem of_mark (exempts : w.Exempts book) (found : w.objects.get? o = some x)
    (off : ∀ p, p ≠ o → later p = book p)
    (owed : ({ x with header := .immortal } : Object).share (later o) = x.share (book o)) :
    Balanced book w later (w.markImmortal o) := by
  have objects : (w.markImmortal o).objects = w.objects.modify o fun y => { y with header := .immortal } := rfl
  refine ⟨fun p e listed => ?_, ?_⟩
  · by_cases same : p = o
    · subst same
      exact ⟨_, by rw [objects, Store.get?_modify, if_pos rfl, found]; rfl, rfl⟩
    · rw [off p same] at listed
      obtain ⟨y, there, exempt⟩ := exempts p e listed
      exact ⟨y, by rw [objects, Store.get?_modify, if_neg (Ne.symm same), there], exempt⟩
  · have shares : (w.markImmortal o).owed later - ({ x with header := .immortal } : Object).share (later o) =
        w.owed book - x.share (book o) := by
      have sums := Store.sumOf_of_eq_off (f := fun p y => Object.share y (later p))
        (g := fun p y => Object.share y (book p)) (i := o)
        (Store.next_modify w.objects o fun y => { y with header := .immortal }) fun p other => by
          simp only [Store.addend, Store.get?_modify, if_neg (Ne.symm other), off p other]
      simpa [Store.addend, Store.get?_modify, found, World.owed, objects] using sums
    have total : (w.markImmortal o).refTotal = w.refTotal := rfl
    omega

theorem markImmortal (exempts : w.Exempts book) (has : w.Has (.object o)) :
    Balanced book w (Label.enroll w (.op (.markImmortal o)) book) (w.markImmortal o) := by
  obtain ⟨x, found⟩ := World.has_object.mp has
  simp only [Label.enroll]
  split
  · next free =>
    refine of_mark exempts found (fun p other => Function.update_of_ne other _ _) ?_
    have count : (w.object o).header.count = x.header.count := by simp [World.object, found]
    rw [Function.update_self, free, count]
    rfl
  · next e listed =>
    refine of_mark exempts found (fun _ _ => rfl) ?_
    rw [listed]
    cases e <;> rfl

end Balanced

theorem Change.balances {unlinks : Prop} {w v : World ε} (change : Change unlinks w v) {book : Book}
    (exempts : w.Exempts book) : Balanced book w book v := by
  cases change with
  | other objects _ _ refTotal => exact .of_eq exempts objects refTotal
  | retain o => exact .retain exempts o
  | newObject type payload => exact .newObject exempts type payload
  | giveBack h =>
    cases h with
    | object o => exact .giveBackObject exempts o
    | _ => exact .of_eq exempts rfl rfl
  | _ => exact .of_eq exempts rfl rfl

theorem Changes.balances {unlinks : Prop} {w v : World ε} (changes : Changes unlinks w v) {book : Book}
    (exempts : w.Exempts book) : Balanced book w book v := by
  induction changes with
  | refl => exact .of_eq exempts rfl rfl
  | tail _ last ih => exact ih.trans (last.balances ih.exempts)

/-! ## Runs -/

theorem Step.balances {c d : Config ε} {l : Label} (step : Step c l d) (kept : l.KeepsTotal c d) {book : Book}
    (exempts : c.world.Exempts book) : Balanced book c.world (l.enroll c.world book) d.world := by
  cases l with
  | quiet =>
    cases step with
    | quiet same => exact .of_eq exempts same.objects kept
  | op call =>
    cases call with
    | newImmortal type payload =>
      cases step with
      | op => exact .newImmortal exempts type payload
    | markImmortal o =>
      cases step with
      | op _ named => exact .markImmortal exempts (named _ (by simp [Op.names]))
    | setCount => exact step.mild.elim
    | newCompiled => cases step with | op => exact .of_eq exempts rfl rfl
    | newInterpreted => cases step with | op => exact .of_eq exempts rfl rfl
    | setFrameAwaiter => cases step with | op => exact .of_eq exempts rfl rfl
    | setAwaiter g a =>
      cases step with
      | op =>
        simp only [Op.run, World.setAwaiter]
        split <;> exact .of_eq exempts rfl rfl
    | _ => exact (step.changes trivial).balances exempts
  | _ => exact (step.changes trivial).balances exempts

theorem Noted.balances {c d : Config ε} {ls : List Label} {blank book : Book} (exempts : c.world.Exempts blank)
    (run : Noted Label.KeepsTotal Label.enroll c blank ls d book) :
    Balanced blank c.world book d.world := by
  induction run with
  | nil => exact .of_eq exempts rfl rfl
  | snoc _ step kept ih => exact ih.trans (step.balances kept ih.exempts)

/-- The book of a world whose objects were all born immortal. -/
def World.bornBook (w : World ε) : Book := fun o => (w.objects.get? o).map fun _ => .born

theorem World.owed_eq_zero {w : World ε} {book : Book} (born : ∀ o, w.Has (.object o) → book o = some .born) :
    w.owed book = 0 := by
  refine Store.sumOf_eq_zero fun o x there => ?_
  rw [born o (World.has_object.mpr ⟨x, there⟩)]
  rfl

theorem World.owed_eq_share {w : World ε} {book : Book} {o : ObjId} {x : Object}
    (found : w.objects.get? o = some x) (born : ∀ p, w.Has (.object p) → p ≠ o → book p = some .born) :
    w.owed book = x.share (book o) := by
  have rest : (w.eraseObject o).owed book = 0 := by
    refine World.owed_eq_zero fun p has => ?_
    have there : p ≠ o ∧ w.Has (.object p) := by
      simp only [World.Has, World.eraseObject, Store.get?_erase] at has
      split at has
      · cases has
      · next other => exact ⟨Ne.symm other, has⟩
    exact born p there.2 there.1
  have split : (w.eraseObject o).owed book = w.owed book - x.share (book o) := Store.sumOf_erase _ found
  omega

/-- The reference total balances. Along a run from a world whose objects were all born immortal, the total moves
by the sum over the objects that are there: the count of an object that was never marked, the count that an object
had when it was marked first, and nothing for one that was born immortal. So the total is back where it was if only
objects that were born immortal are left, and one above if there is one more, marked while it was fresh. -/
theorem refTotal_balances {c d : Config ε} {ls : List Label} {book : Book}
    (bare : ∀ o x, c.world.objects.get? o = some x → x.header = .immortal)
    (run : Noted Label.KeepsTotal Label.enroll c c.world.bornBook ls d book) :
    d.world.refTotal - c.world.refTotal =
      (d.world.objects.entries.map fun e => e.2.share (book e.1)).sum ∧
    ((∀ o, d.world.Has (.object o) → book o = some .born) → d.world.refTotal = c.world.refTotal) ∧
    ∀ o, book o = some (.marked 1) → (∀ p, d.world.Has (.object p) → p ≠ o → book p = some .born) →
      d.world.refTotal = c.world.refTotal + 1 := by
  have exempts : c.world.Exempts c.world.bornBook := by
    intro o e listed
    obtain ⟨x, there, -⟩ := Option.map_eq_some_iff.mp listed
    exact ⟨x, there, bare o x there⟩
  have balanced := run.balances exempts
  have before : c.world.owed c.world.bornBook = 0 := by
    refine World.owed_eq_zero fun o has => ?_
    obtain ⟨x, there⟩ := World.has_object.mp has
    simp [World.bornBook, there]
  have total : d.world.refTotal - c.world.refTotal = d.world.owed book := by
    have moved := balanced.total
    omega
  refine ⟨total, fun born => ?_, fun o marked born => ?_⟩
  · rw [World.owed_eq_zero born] at total
    omega
  · obtain ⟨x, there, -⟩ := balanced.exempts o _ marked
    rw [World.owed_eq_share there born, marked] at total
    have one : x.share (some (.marked 1)) = 1 := rfl
    omega

/-- Of three objects the first is marked while it is fresh and goes on being cloned and dropped, the second is
freed after it was cloned, and the third is born immortal and marked again. -/
theorem refTotal_balances_marked :
    ∃ (ls : List Label) (d : Config Unit) (book : Book),
      Noted Label.KeepsTotal Label.enroll (Config.start ()) (Config.start ()).world.bornBook
        ls d book ∧
      book 1 = some (.marked 1) ∧ book 3 = some .born ∧ ¬ d.world.Has (.object 2) ∧ d.world.refTotal = 1 := by
  let settled (d : Config Unit) (book : Book) : Bool :=
    decide (book 0 = some .born) && decide (book 1 = some (.marked 1)) && decide (book 3 = some .born) &&
      decide (¬ d.world.Has (.object 2)) && decide (d.world.objects.next = 4)
  obtain ⟨ls, d, book, run, holds⟩ := Config.exists_noted (p := settled)
    [.call (.newObject .int (.int 7)), .call (.newObject .str (.str "s")), .call (.clone (.object 2)),
      .call (.newImmortal .int (.int 8)), .call (.markImmortal 1), .call (.clone (.object 1)),
      .call (.drop (.object 2)), .call (.markImmortal 3), .call (.drop (.object 1)), .call (.drop (.object 2))]
    (by decide +kernel : (Config.noteAll? Label.KeepsTotal Label.enroll (Config.start ())
      (Config.start ()).world.bornBook _).any _ = true)
  simp only [settled, Bool.and_eq_true, decide_eq_true_eq] at holds
  obtain ⟨⟨⟨⟨zero, marked⟩, born⟩, gone⟩, next⟩ := holds
  have bare : ∀ o x, (Config.start ()).world.objects.get? o = some x → x.header = .immortal := by
    intro o x there
    rw [show (Config.start ()).world.objects = Store.empty.insert .nothing from rfl, Store.get?_insert] at there
    split at there
    · cases there
      rfl
    · simp at there
  refine ⟨ls, d, book, run, marked, born, gone, ?_⟩
  refine (refTotal_balances bare run).2.2 1 marked fun p has other => ?_
  obtain ⟨x, there⟩ := World.has_object.mp has
  have below := d.world.objects.lt_next there
  rw [next] at below
  have cases : ∀ n : Nat, n < 4 → n = 0 ∨ n = 1 ∨ n = 2 ∨ n = 3 := by omega
  rcases cases p below with rfl | rfl | rfl | rfl
  · exact zero
  · exact absurd rfl other
  · exact absurd has gone
  · exact born

end Activation
