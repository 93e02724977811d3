import Activation.Lock
import Mathlib.Data.List.Basic

/-! # Threads at the lock

A `Locking` run interleaves any number of threads that take and drop guards. A guard is named by
the place in the run at which it was taken, so a thread can drop the guards it holds in any order.
The main statement: the thread that holds guards owns the lock alone, its depth counts them, and
the lock is free again at the drop of the last of them.
-/

namespace Activation
set_option autoImplicit false

namespace Lock

theorem lookup_filter_ne {ds : List (ThreadId × Nat)} {t u : ThreadId} (other : u ≠ t) :
    (ds.filter fun d => d.1 != t).lookup u = ds.lookup u := by
  induction ds with
  | nil => rfl
  | cons d ds ih =>
    obtain ⟨v, n⟩ := d
    by_cases own : v = t
    · have differs : (u == v) = false := by rw [own]; exact beq_false_of_ne other
      rw [List.filter_cons_of_neg (by simp [own]), ih, List.lookup_cons, differs]
    · rw [List.filter_cons_of_pos (by simp [own]), List.lookup_cons, List.lookup_cons, ih]

@[simp] theorem depth_setDepth (l : Lock) (t u : ThreadId) (n : Nat) :
    (l.setDepth t n).depth u = if u = t then n else l.depth u := by
  unfold depth setDepth
  by_cases own : u = t
  · subst own
    rw [if_pos rfl, List.lookup_cons_self]
    rfl
  · have differs : (u == t) = false := beq_false_of_ne own
    rw [if_neg own, List.lookup_cons, differs, lookup_filter_ne own]

@[simp] theorem depth_setOwner (l : Lock) (o : Option ThreadId) (t : ThreadId) :
    ({ l with owner := o } : Lock).depth t = l.depth t := rfl

/-- Taking a guard either claims the free lock or nests in a lock that the thread holds. -/
theorem acquire_cases {l l' : Lock} {t : ThreadId} {guard : LockGuard}
    (acquired : l.acquire t = some (guard, l')) :
    (∀ u, l'.depth u = if u = t then l.depth t + 1 else l.depth u) ∧
      (guard.outermost = true ↔ l.depth t = 0) ∧
      (l.depth t = 0 ∧ l.owner = none ∧ l'.owner = some t ∨
        0 < l.depth t ∧ l'.owner = l.owner) := by
  unfold acquire at acquired
  by_cases zero : l.depth t = 0
  · rw [if_pos zero] at acquired
    cases owner : l.owner with
    | none =>
      rw [owner] at acquired
      cases acquired
      refine ⟨fun u => ?_, by simp [zero], .inl ⟨zero, rfl, rfl⟩⟩
      rw [depth_setDepth, zero]
      rfl
    | some o =>
      rw [owner] at acquired
      cases acquired
  · rw [if_neg zero] at acquired
    cases acquired
    refine ⟨fun u => depth_setDepth l t u _, by simp [zero], .inr ⟨by omega, rfl⟩⟩

theorem acquire_eq_none_iff {l : Lock} {t : ThreadId} :
    l.acquire t = none ↔ l.depth t = 0 ∧ l.owner ≠ none := by
  unfold acquire
  by_cases zero : l.depth t = 0
  · cases owner : l.owner <;> simp [zero]
  · simp [zero]

theorem depth_drop (l : Lock) (t u : ThreadId) :
    (l.drop t).depth u = if u = t then l.depth t - 1 else l.depth u := by
  unfold drop
  simp only
  split
  · rw [depth_setOwner, depth_setDepth]
  · rw [depth_setDepth]

theorem owner_drop (l : Lock) (t : ThreadId) :
    (l.drop t).owner = if l.depth t - 1 = 0 then none else l.owner := by
  unfold drop
  simp only
  split <;> rfl

end Lock

/-- What a thread does at the lock: it takes a guard, or drops the guard that it took as the
`i`-th event of the run. -/
inductive LockEvent where
  | took (t : ThreadId) (guard : LockGuard)
  | dropped (t : ThreadId) (i : Nat)
deriving DecidableEq

/-- The live guards of a thread after a run, whose latest event stands first. -/
def held : List LockEvent → ThreadId → List Nat
  | [], _ => []
  | .took u _ :: es, t => if t = u then es.length :: held es t else held es t
  | .dropped u i :: es, t => if t = u then (held es t).erase i else held es t

/-- One step of some thread. A thread whose `acquire` answers `none` waits and does no step. -/
inductive LockStep (es : List LockEvent) (l : Lock) : LockEvent → Lock → Prop where
  | take {t : ThreadId} {guard : LockGuard} {l' : Lock} (acquired : l.acquire t = some (guard, l')) :
      LockStep es l (.took t guard) l'
  | drop {t : ThreadId} {i : Nat} (member : i ∈ held es t) :
      LockStep es l (.dropped t i) (l.drop t)

/-- The runs of all threads, in any interleaving, from the free lock. -/
inductive Locking : List LockEvent → Lock → Prop where
  | start : Locking [] {}
  | step {es : List LockEvent} {l l' : Lock} {e : LockEvent} (run : Locking es l)
      (taken : LockStep es l e l') : Locking (e :: es) l'

/-- A guard is live once its thread has taken it and until the thread drops it. -/
def LiveGuard (es : List LockEvent) (t : ThreadId) (i : Nat) : Prop :=
  (∃ guard, es.reverse[i]? = some (.took t guard)) ∧ .dropped t i ∉ es

theorem getElem?_reverse_cons {e : LockEvent} {es : List LockEvent} {i : Nat} :
    (e :: es).reverse[i]? = if i = es.length then some e else es.reverse[i]? := by
  rw [List.reverse_cons, List.getElem?_append, List.length_reverse]
  by_cases earlier : i < es.length
  · rw [if_pos earlier, if_neg (by omega)]
  · rw [if_neg earlier]
    by_cases last : i = es.length
    · rw [if_pos last, last, Nat.sub_self, List.getElem?_cons_zero]
    · rw [if_neg last, List.getElem?_eq_none (by simp; omega),
        List.getElem?_eq_none (by simp; omega)]

/-- The guards of a run are named apart: a name is a place in the run. -/
theorem held_lt_length {es : List LockEvent} {t : ThreadId} {i : Nat} (member : i ∈ held es t) :
    i < es.length := by
  induction es with
  | nil => cases member
  | cons e es ih =>
    rw [List.length_cons]
    cases e with
    | took u guard =>
      rw [held] at member
      split at member
      · cases List.mem_cons.1 member with
        | inl last => omega
        | inr member => exact Nat.lt_succ_of_lt (ih member)
      · exact Nat.lt_succ_of_lt (ih member)
    | dropped u j =>
      rw [held] at member
      split at member
      · exact Nat.lt_succ_of_lt (ih (List.mem_of_mem_erase member))
      · exact Nat.lt_succ_of_lt (ih member)

theorem held_nodup (es : List LockEvent) (t : ThreadId) : (held es t).Nodup := by
  induction es with
  | nil => exact List.nodup_nil
  | cons e es ih =>
    cases e with
    | took u guard =>
      rw [held]
      split
      · exact List.nodup_cons.2 ⟨fun member => Nat.lt_irrefl _ (held_lt_length member), ih⟩
      · exact ih
    | dropped u i =>
      rw [held]
      split
      · exact ih.erase i
      · exact ih

theorem Locking.dropped_lt_length {es : List LockEvent} {l : Lock} (run : Locking es l)
    {t : ThreadId} {i : Nat} (gone : .dropped t i ∈ es) : i < es.length := by
  induction run with
  | start => cases gone
  | step run taken ih =>
    rw [List.length_cons]
    cases List.mem_cons.1 gone with
    | inl last =>
      subst last
      cases taken with
      | drop member => exact Nat.lt_succ_of_lt (held_lt_length member)
    | inr gone => exact Nat.lt_succ_of_lt (ih gone)

theorem LiveGuard.lt_length {es : List LockEvent} {t : ThreadId} {i : Nat}
    (live : LiveGuard es t i) : i < es.length := by
  obtain ⟨⟨guard, took⟩, -⟩ := live
  obtain ⟨below, -⟩ := List.getElem?_eq_some_iff.1 took
  rwa [List.length_reverse] at below

theorem Locking.liveGuard_took {es : List LockEvent} {l : Lock} (run : Locking es l)
    (u t : ThreadId) (guard : LockGuard) (i : Nat) :
    LiveGuard (.took u guard :: es) t i ↔ t = u ∧ i = es.length ∨ LiveGuard es t i := by
  by_cases last : i = es.length
  · subst last
    have fresh : .dropped t es.length ∉ es := fun member =>
      Nat.lt_irrefl _ (run.dropped_lt_length member)
    have dead : ¬ LiveGuard es t es.length := fun live => Nat.lt_irrefl _ live.lt_length
    rw [LiveGuard, getElem?_reverse_cons, if_pos rfl]
    simp [fresh, dead, eq_comm]
  · rw [LiveGuard, getElem?_reverse_cons, if_neg last]
    simp [last, LiveGuard]

theorem liveGuard_dropped (es : List LockEvent) (u t : ThreadId) (i j : Nat) :
    LiveGuard (.dropped u j :: es) t i ↔ (t = u → i ≠ j) ∧ LiveGuard es t i := by
  have cons : (∃ guard, (.dropped u j :: es).reverse[i]? = some (.took t guard)) ↔
      ∃ guard, es.reverse[i]? = some (.took t guard) := by
    rw [getElem?_reverse_cons]
    by_cases last : i = es.length
    · rw [if_pos last, List.getElem?_eq_none (by simp [last])]
      simp
    · rw [if_neg last]
  rw [LiveGuard, cons, List.mem_cons, LiveGuard, LockEvent.dropped.injEq]
  tauto

/-- The computed list of guards holds exactly those that were taken and not dropped. -/
theorem Locking.mem_held_iff {es : List LockEvent} {l : Lock} (run : Locking es l)
    (t : ThreadId) (i : Nat) : i ∈ held es t ↔ LiveGuard es t i := by
  induction run with
  | start => simp [held, LiveGuard]
  | @step es l l' e run taken ih =>
    cases e with
    | took u guard =>
      rw [run.liveGuard_took, ← ih, held]
      split
      · next own => simp [own]
      · next own => simp [own]
    | dropped u j =>
      rw [liveGuard_dropped, ← ih, held]
      split
      · next own => simp [own, (held_nodup es u).mem_erase_iff]
      · next own => simp [own]

/-- The lock's cells agree with the live guards. -/
structure Lock.Agrees (l : Lock) (es : List LockEvent) : Prop where
  depth : ∀ t, l.depth t = (held es t).length
  owner : ∀ t, l.owner = some t ↔ held es t ≠ []

theorem Lock.Agrees.depth_eq_zero_iff {l : Lock} {es : List LockEvent} (agrees : l.Agrees es)
    (t : ThreadId) : l.depth t = 0 ↔ held es t = [] := by
  rw [agrees.depth t, List.length_eq_zero_iff]

theorem LockStep.agrees {es : List LockEvent} {l l' : Lock} {e : LockEvent}
    (step : LockStep es l e l') (agrees : l.Agrees es) : l'.Agrees (e :: es) := by
  cases step with
  | @take t guard l' acquired =>
    obtain ⟨depth, -, owner⟩ := Lock.acquire_cases acquired
    refine ⟨fun u => ?_, fun u => ?_⟩
    · rw [depth u, held]
      by_cases own : u = t
      · rw [if_pos own, if_pos own, List.length_cons, own, agrees.depth t]
      · rw [if_neg own, if_neg own, agrees.depth u]
    · rw [held]
      cases owner with
      | inl free =>
        obtain ⟨-, unowned, taken⟩ := free
        -- the lock was free, so nobody else has a guard
        have others : held es u = [] := by
          by_contra nonempty
          rw [(agrees.owner u).2 nonempty] at unowned
          cases unowned
        rw [taken, others]
        by_cases own : u = t
        · simp [own]
        · simp [own, Ne.symm own]
      | inr nested =>
        obtain ⟨pos, same⟩ := nested
        have mine : held es t ≠ [] := fun empty => by
          rw [(agrees.depth_eq_zero_iff t).2 empty] at pos
          exact Nat.lt_irrefl 0 pos
        rw [same, agrees.owner u]
        by_cases own : u = t
        · subst own
          simp [mine]
        · rw [if_neg own]
  | @drop t i member =>
    have mine : held es t ≠ [] := List.ne_nil_of_mem member
    have owner : l.owner = some t := (agrees.owner t).2 mine
    refine ⟨fun u => ?_, fun u => ?_⟩
    · rw [Lock.depth_drop, held]
      by_cases own : u = t
      · subst own
        rw [if_pos rfl, if_pos rfl, List.length_erase_of_mem member, agrees.depth u]
      · rw [if_neg own, if_neg own, agrees.depth u]
    · rw [Lock.owner_drop, held]
      by_cases own : u = t
      · subst own
        rw [if_pos rfl, ← List.length_pos_iff, List.length_erase_of_mem member, agrees.depth u]
        split
        · simp; omega
        · simp [owner]; omega
      · have others : held es u = [] := by
          by_contra nonempty
          rw [(agrees.owner u).2 nonempty] at owner
          exact own (Option.some.inj owner)
        rw [if_neg own, others, owner]
        split
        · simp
        · simp [Ne.symm own]

theorem Locking.agrees {es : List LockEvent} {l : Lock} (run : Locking es l) : l.Agrees es := by
  induction run with
  | start => exact ⟨fun _ => rfl, fun _ => ⟨fun owner => (by cases owner), fun nonempty => absurd rfl nonempty⟩⟩
  | step _ taken ih => exact taken.agrees ih

/-- A step empties the owner cell exactly when it drops the only live guard of the owner. -/
theorem LockStep.frees_iff {es : List LockEvent} {l l' : Lock} {e : LockEvent}
    (step : LockStep es l e l') (agrees : l.Agrees es) (t : ThreadId) :
    l.owner = some t ∧ l'.owner = none ↔ ∃ i, e = .dropped t i ∧ held es t = [i] := by
  cases step with
  | @take u guard l' acquired =>
    obtain ⟨-, -, owner⟩ := Lock.acquire_cases acquired
    constructor
    · rintro ⟨owned, freed⟩
      obtain ⟨-, -, took⟩ | ⟨-, same⟩ := owner
      · rw [took] at freed
        cases freed
      · rw [same, owned] at freed
        cases freed
    · rintro ⟨i, eq, -⟩
      cases eq
  | @drop u i member =>
    have owner : l.owner = some u := (agrees.owner u).2 (List.ne_nil_of_mem member)
    have pos : 0 < (held es u).length := List.length_pos_of_mem member
    rw [Lock.owner_drop, owner, agrees.depth u]
    constructor
    · rintro ⟨owned, freed⟩
      cases owned
      have one : (held es t).length = 1 := by
        by_contra more
        rw [if_neg (by omega)] at freed
        cases freed
      obtain ⟨j, single⟩ := List.length_eq_one_iff.1 one
      rw [single, List.mem_singleton] at member
      exact ⟨i, rfl, member ▸ single⟩
    · rintro ⟨j, eq, single⟩
      cases eq
      rw [single]
      exact ⟨rfl, rfl⟩

/-- A guard says that it is outermost exactly when its thread had no live guard before it. -/
theorem Locking.outermost_iff {later es : List LockEvent} {l : Lock} {t : ThreadId}
    {guard : LockGuard} (run : Locking (later ++ .took t guard :: es) l) :
    guard.outermost = true ↔ held es t = [] := by
  induction later generalizing l with
  | nil =>
    cases run with
    | step before taken =>
      cases taken with
      | take acquired =>
        obtain ⟨-, outermost, -⟩ := Lock.acquire_cases acquired
        rw [outermost, before.agrees.depth_eq_zero_iff]
  | cons e later ih =>
    cases run with
    | step before _ => exact ih before

/-- Whatever the interleaving of the threads and the order in which each drops its guards, the lock
is held by the thread that has live guards and by nobody else. -/
theorem lock_follows_guards {es : List LockEvent} {l : Lock} (run : Locking es l) :
    (∀ t i, i ∈ held es t ↔ LiveGuard es t i) ∧
    (∀ t, (held es t).Nodup ∧ l.depth t = (held es t).length ∧
      (l.isHeld t = true ↔ held es t ≠ [])) ∧
    (∀ t, (l.owner = some t ↔ held es t ≠ []) ∧
      (held es t ≠ [] → ∀ u, u ≠ t → held es u = [])) ∧
    (∀ t, l.acquire t = none ↔ ∃ u, u ≠ t ∧ held es u ≠ []) ∧
    (∀ t i, i ∈ held es t → (l.drop t).depth t + 1 = l.depth t) ∧
    (∀ e l', LockStep es l e l' → ∀ t,
      (l.owner = some t ∧ l'.owner = none ↔ ∃ i, e = .dropped t i ∧ held es t = [i])) ∧
    ∀ later before t guard, es = later ++ .took t guard :: before →
      (guard.outermost = true ↔ held before t = []) := by
  have agrees := run.agrees
  have alone : ∀ t, held es t ≠ [] → ∀ u, u ≠ t → held es u = [] := by
    intro t mine u other
    by_contra nonempty
    have owner := (agrees.owner t).2 mine
    rw [(agrees.owner u).2 nonempty] at owner
    exact other (Option.some.inj owner)
  refine ⟨run.mem_held_iff, fun t => ⟨held_nodup es t, agrees.depth t, ?_⟩,
    fun t => ⟨agrees.owner t, alone t⟩, ?_, ?_, ?_, ?_⟩
  · rw [Lock.isHeld, decide_eq_true_iff, agrees.depth t, List.length_pos_iff]
  · intro t
    rw [Lock.acquire_eq_none_iff, agrees.depth_eq_zero_iff]
    constructor
    · rintro ⟨mine, owner⟩
      obtain ⟨u, other⟩ := Option.ne_none_iff_exists'.1 owner
      refine ⟨u, ?_, (agrees.owner u).1 other⟩
      rintro rfl
      exact (agrees.owner u).1 other mine
    · rintro ⟨u, other, nonempty⟩
      refine ⟨alone u nonempty t other.symm, ?_⟩
      rw [(agrees.owner u).2 nonempty]
      exact Option.some_ne_none u
  · intro t i member
    have pos : 0 < (held es t).length := List.length_pos_of_mem member
    rw [Lock.depth_drop, if_pos rfl, agrees.depth t]
    omega
  · intro e l' step t
    exact step.frees_iff agrees t
  · rintro later before t guard rfl
    exact run.outermost_iff

/-- Thread 1 nests two guards and drops the outer one first: thread 2 still has to wait, the inner
guard keeps its thread the owner, and its drop is the one that frees the lock. -/
theorem outer_guard_dropped_first :
    let es := [.dropped 1 0, .took 1 ⟨false⟩, .took 1 ⟨true⟩]
    let l : Lock := ⟨some 1, [(1, 1)]⟩
    Locking es l ∧ held es 1 = [1] ∧ l.owner = some 1 ∧ l.acquire 2 = none ∧
      (l.drop 1).owner = none := by
  intro es l
  have run : Locking es l := ((Locking.start.step (.take rfl)).step (.take rfl)).step
    (.drop (i := 0) (by decide))
  obtain ⟨-, -, owner, waits, -, frees, -⟩ := lock_follows_guards run
  refine ⟨run, by decide, (owner 1).1.2 (by decide), (waits 2).2 ⟨1, by decide, by decide⟩, ?_⟩
  exact ((frees (.dropped 1 1) (l.drop 1) (.drop (by decide)) 1).2 ⟨1, rfl, by decide⟩).2

end Activation
