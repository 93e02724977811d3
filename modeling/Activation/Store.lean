/-! # Stores

A store keeps values under identities that are handed out once. A value that is erased leaves a hole,
and its identity is never used again.

* `Store.get?` is the view of a store; each operation says what it does to the view.
* `Store.weigh f` adds up `f` over the values that are present; erasing a value takes its share away.
-/

namespace Activation
set_option autoImplicit false

/-- Values under identities that count up from zero. -/
structure Store (α : Type) where
  cells : Array (Option α) := #[]

namespace Store

variable {α : Type}

def empty : Store α := ⟨#[]⟩

/-- The value under an identity, unless it was erased or never given out. -/
def get? (s : Store α) (i : Nat) : Option α := (s.cells[i]?).join

/-- The identity that the next value gets. -/
def next (s : Store α) : Nat := s.cells.size

def insert (s : Store α) (a : α) : Store α := ⟨s.cells.push (some a)⟩

def set (s : Store α) (i : Nat) (a : Option α) : Store α := ⟨s.cells.setIfInBounds i a⟩

def erase (s : Store α) (i : Nat) : Store α := s.set i none

/-- Changes the value under an identity; without a value nothing happens. -/
def modify (s : Store α) (i : Nat) (f : α → α) : Store α := ⟨s.cells.modify i (Option.map f)⟩

/-- Takes one owner away from a value. The last owner takes the value along. -/
def disown (s : Store α) (owners : α → Nat) (less : α → α) (i : Nat) : Store α × Option α :=
  match s.get? i with
  | none => (s, none)
  | some a => if owners a ≤ 1 then (s.erase i, some a) else (s.modify i less, none)

/-- Whether a value is present. -/
def contains (s : Store α) (i : Nat) : Bool := (s.get? i).isSome

/-- The identities and values that are present, in the order they were given out. -/
def entries (s : Store α) : List (Nat × α) :=
  (s.cells.toList.zipIdx).filterMap fun c => c.1.map fun a => (c.2, a)

/-! ## The view after each operation -/

@[simp] theorem get?_insert_next (s : Store α) (a : α) : (s.insert a).get? s.next = some a := by
  simp [get?, insert, next]

theorem get?_insert_of_ne (s : Store α) (a : α) {i : Nat} (other : i ≠ s.next) :
    (s.insert a).get? i = s.get? i := by
  simp only [get?, insert, next] at *
  rw [Array.getElem?_push]
  simp [other]

theorem get?_modify (s : Store α) (i j : Nat) (f : α → α) :
    (s.modify i f).get? j = if i = j then (s.get? j).map f else s.get? j := by
  simp only [get?, modify, Array.getElem?_modify]
  by_cases own : i = j
  · simp only [own, if_true]
    cases s.cells[j]? with
    | none => rfl
    | some c => cases c <;> rfl
  · simp [own]

theorem get?_erase (s : Store α) (i j : Nat) :
    (s.erase i).get? j = if i = j then none else s.get? j := by
  simp only [get?, erase, set, Array.getElem?_setIfInBounds]
  by_cases own : i = j
  · subst own
    by_cases inside : i < s.cells.size <;> simp [inside]
  · simp [own]

/-- Only identities that were given out name a value. -/
theorem lt_next (s : Store α) {i : Nat} {a : α} (found : s.get? i = some a) : i < s.next := by
  simp only [get?] at found
  by_cases inside : i < s.cells.size
  · exact inside
  · rw [Array.getElem?_eq_none (Nat.le_of_not_lt inside)] at found
    simp at found

theorem get?_insert (s : Store α) (a : α) (i : Nat) :
    (s.insert a).get? i = if i = s.next then some a else s.get? i := by
  by_cases new : i = s.next
  · subst new; simp
  · simp [new, get?_insert_of_ne]

@[simp] theorem get?_empty (i : Nat) : (empty : Store α).get? i = none := by simp [get?, empty]

@[simp] theorem next_insert (s : Store α) (a : α) : (s.insert a).next = s.next + 1 := by
  simp [next, insert]

@[simp] theorem next_modify (s : Store α) (i : Nat) (f : α → α) : (s.modify i f).next = s.next := by
  simp [next, modify]

@[simp] theorem next_erase (s : Store α) (i : Nat) : (s.erase i).next = s.next := by
  simp [next, erase, set]

/-- A change is known by what it does to the value. -/
theorem modify_congr (s : Store α) {i : Nat} {f g : α → α} (same : ∀ a, s.get? i = some a → f a = g a) :
    s.modify i f = s.modify i g := by
  have cells : s.cells.modify i (Option.map f) = s.cells.modify i (Option.map g) := by
    apply Array.ext_getElem?
    intro j
    rw [Array.getElem?_modify, Array.getElem?_modify]
    by_cases own : i = j
    · subst own
      simp only [get?] at same
      cases found : s.cells[i]? with
      | none => simp
      | some c => cases c <;> simp_all
    · simp [own]
  simp [modify, cells]

theorem modify_eq_self (s : Store α) {i : Nat} {f : α → α} (same : ∀ a, s.get? i = some a → f a = a) :
    s.modify i f = s := by
  have cells : s.cells.modify i (Option.map id) = s.cells := by
    apply Array.ext_getElem?
    intro j
    rw [Array.getElem?_modify]
    split <;> simp
  rw [modify_congr s (g := id) same, modify, cells]

/-- Without a value there is nothing to change. -/
theorem modify_of_none (s : Store α) {i : Nat} (f : α → α) (missing : s.get? i = none) :
    s.modify i f = s := modify_eq_self s fun a found => by rw [missing] at found; cases found

/-! ## Weight -/

/-- The share of one cell. -/
def cellWeight (f : α → Nat) : Option α → Nat
  | none => 0
  | some a => f a

def listWeight {β : Type} (g : β → Nat) : List β → Nat
  | [] => 0
  | b :: l => g b + listWeight g l

/-- The sum of `f` over the values that are present. -/
def weigh (f : α → Nat) (s : Store α) : Nat := listWeight (cellWeight f) s.cells.toList

theorem listWeight_set {β : Type} (g : β → Nat) (l : List β) (i : Nat) (b c : β)
    (found : l[i]? = some b) : listWeight g (l.set i c) + g b = listWeight g l + g c := by
  induction l generalizing i with
  | nil => simp at found
  | cons x xs ih =>
    cases i with
    | zero =>
      simp only [List.getElem?_cons_zero, Option.some.injEq] at found
      subst found
      simp only [List.set_cons_zero, listWeight]
      omega
    | succ k =>
      simp only [List.getElem?_cons_succ] at found
      have := ih k found
      simp only [List.set_cons_succ, listWeight]
      omega

/-- Erasing a value takes its share away. -/
theorem weigh_erase (f : α → Nat) (s : Store α) (i : Nat) (a : α) (found : s.get? i = some a) :
    weigh f (s.erase i) + f a = weigh f s := by
  have cell : s.cells.toList[i]? = some (some a) := by
    simp only [get?] at found
    cases read : s.cells[i]? with
    | none => simp [read] at found
    | some c => simp_all
  have := listWeight_set (cellWeight f) s.cells.toList i (some a) none cell
  simpa [weigh, erase, set, Array.toList_setIfInBounds, cellWeight] using this

theorem listWeight_append {β : Type} (g : β → Nat) (l m : List β) :
    listWeight g (l ++ m) = listWeight g l + listWeight g m := by
  induction l with
  | nil => simp [listWeight]
  | cons b l ih => simp only [List.cons_append, listWeight, ih]; omega

@[simp] theorem weigh_empty (f : α → Nat) : weigh f (empty : Store α) = 0 := rfl

/-- A new value brings its share along. -/
@[simp] theorem weigh_insert (f : α → Nat) (s : Store α) (a : α) :
    weigh f (s.insert a) = weigh f s + f a := by
  simp [weigh, insert, listWeight_append, listWeight, cellWeight]

/-- A change of one value exchanges its share. -/
theorem weigh_modify_add (f : α → Nat) (s : Store α) (i : Nat) (g : α → α) (a : α)
    (found : s.get? i = some a) : weigh f (s.modify i g) + f a = weigh f s + f (g a) := by
  have cell : s.cells.toList[i]? = some (some a) := by
    simp only [get?] at found
    cases read : s.cells[i]? with
    | none => simp [read] at found
    | some c => simp_all
  have modified : s.cells.toList.modify i (Option.map g) = s.cells.toList.set i (some (g a)) := by
    rw [List.modify_eq_set, cell]
    rfl
  have := listWeight_set (cellWeight f) s.cells.toList i (some a) (some (g a)) cell
  simpa [weigh, modify, Array.toList_modify, modified, cellWeight] using this

/-- Every value that is present weighs in. -/
theorem le_weigh (f : α → Nat) (s : Store α) (i : Nat) (a : α) (found : s.get? i = some a) :
    f a ≤ weigh f s := by
  have := weigh_erase f s i a found
  omega

/-- Changes that keep every share keep the weight. -/
theorem weigh_modify (f : α → Nat) (s : Store α) (i : Nat) (g : α → α) (same : ∀ a, f (g a) = f a) :
    weigh f (s.modify i g) = weigh f s := by
  have cells : ∀ c, cellWeight f (Option.map g c) = cellWeight f c := fun c => by
    cases c <;> simp [cellWeight, same]
  have lists : ∀ (l : List (Option α)) (k : Nat),
      listWeight (cellWeight f) (l.modify k (Option.map g)) = listWeight (cellWeight f) l := by
    intro l
    induction l with
    | nil => intro k; cases k <;> simp
    | cons x xs ih =>
      intro k
      cases k with
      | zero => simp [listWeight, cells]
      | succ k => simp [listWeight, ih]
  simpa [weigh, modify, Array.toList_modify] using lists s.cells.toList i

/-- Disowning a value takes its share away with the last owner only. -/
theorem weigh_disown (f : α → Nat) (s : Store α) (owners : α → Nat) (less : α → α) (i : Nat)
    (same : ∀ a, f (less a) = f a) :
    weigh f (s.disown owners less i).1 + cellWeight f (s.disown owners less i).2 = weigh f s := by
  unfold disown
  split
  · simp [cellWeight]
  · next a found =>
    split
    · exact weigh_erase f s i a found
    · simp [cellWeight, weigh_modify f s i less same]

end Store

end Activation
