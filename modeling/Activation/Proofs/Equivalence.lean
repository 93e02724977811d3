import Activation.Proofs.Lifecycle.Dialogue
import Mathlib.Data.List.Forall2
import Mathlib.Data.List.Induction
import Mathlib.Data.Option.Basic

/-! # Both backings behave alike

A compiled and an interpreted context of one kind, with bodies that behave alike, cannot be told apart from
outside: the same requests get the same answers, and all that can be asked about the contexts is the same, between
requests and while the bodies run. Only a compiled context tells of an exception in flight.

* `Exchange.Alike ρ`, `Exchange.Same ρ`: two exchanges have the same question; and they have the same answer,
  too. Objects are the same up to `ρ`, which may be equality if both contexts are served the same objects.
* `Exchange.Follows b`: the body stops as the behaviour `b` says, which depends on the exchanges so far.
* `BehaveAlike`: two behaviours stop in the same way after the same exchanges; each behaves like itself.
* `LookAlike`: everybody sees the same of two contexts.
* `backings_equivalent`: the whole of it, for every two dialogues with the same questions.
-/

namespace Activation
set_option autoImplicit false

variable {ε : Type}

/-! ## The same up to the names of objects -/

/-- The same exception, where the objects that travel along are related. -/
def Exception.Same (ρ : ObjId → ObjId → Prop) (e f : Exception) : Prop :=
  e.kind = f.kind ∧ e.message = f.message ∧ Option.Rel ρ e.value f.value

inductive Injection.Same (ρ : ObjId → ObjId → Prop) : Injection → Injection → Prop where
  | send {o p : ObjId} (value : ρ o p) : Same ρ (.send o) (.send p)
  | throw {e f : Exception} (exception : e.Same ρ f) : Same ρ (.throw e) (.throw f)
  | close : Same ρ .close .close

inductive Ending.Same (ρ : ObjId → ObjId → Prop) : Ending → Ending → Prop where
  | yields {o p : ObjId} (value : ρ o p) : Same ρ (.yields o) (.yields p)
  | returns {o p : ObjId} (value : ρ o p) : Same ρ (.returns o) (.returns p)
  | raises {e f : Exception} (exception : e.Same ρ f) : Same ρ (.raises e) (.raises f)
  | panics {p : Panic} : Same ρ (.panics p) (.panics p)

inductive Resumption.Same (ρ : ObjId → ObjId → Prop) : Resumption → Resumption → Prop where
  | yielded {o p : ObjId} (value : ρ o p) : Same ρ (.done (.yielded o)) (.done (.yielded p))
  | returned {o p : ObjId} (value : ρ o p) : Same ρ (.done (.returned o)) (.done (.returned p))
  | raised {e f : Exception} (exception : e.Same ρ f) : Same ρ (.done (.raised e)) (.done (.raised f))
  | refused {e : GeneratorError} : Same ρ (.refused e) (.refused e)
  | panicked {p : Panic} : Same ρ (.panicked p) (.panicked p)

/-- The same question. A body that stops asks nothing. -/
inductive Exchange.Alike (ρ : ObjId → ObjId → Prop) : Exchange → Exchange → Prop where
  | asked {inj inj' : Injection} {valued : Bool} {answer answer' : Option Resumption} (request : inj.Same ρ inj') :
      Alike ρ (.asked inj valued answer) (.asked inj' valued answer')
  | stopped {ending ending' : Ending} {answer answer' : Resumption} :
      Alike ρ (.stopped ending answer) (.stopped ending' answer')

/-- The same question with the same answer. -/
inductive Exchange.Same (ρ : ObjId → ObjId → Prop) : Exchange → Exchange → Prop where
  | asked {inj inj' : Injection} {valued : Bool} {answer answer' : Option Resumption} (request : inj.Same ρ inj')
      (result : Option.Rel (Resumption.Same ρ) answer answer') :
      Same ρ (.asked inj valued answer) (.asked inj' valued answer')
  | stopped {ending ending' : Ending} {answer answer' : Resumption} (stop : ending.Same ρ ending')
      (result : answer.Same ρ answer') : Same ρ (.stopped ending answer) (.stopped ending' answer')

section Same

variable {ρ : ObjId → ObjId → Prop}

theorem Exception.Same.runtimeError (message : String) :
    (Exception.runtimeError message).Same ρ (.runtimeError message) := ⟨rfl, rfl, .none⟩

theorem Injection.Same.isClosing {i j : Injection} (same : i.Same ρ j) : i.isClosing = j.isClosing := by
  cases same <;> rfl

theorem Injection.Same.isThrowing {i j : Injection} (same : i.Same ρ j) : i.isThrowing = j.isThrowing := by
  cases same <;> rfl

theorem Ending.Same.isYield {e f : Ending} (same : e.Same ρ f) : e.isYield = f.isYield := by
  cases same <;> rfl

theorem Resumption.Same.isRefusal {r s : Resumption} (same : r.Same ρ s) : r.isRefusal = s.isRefusal := by
  cases same <;> rfl

theorem Exchange.Same.incident {e f : Exchange} (same : e.Same ρ f) : e.incident = f.incident := by
  cases same with
  | asked request result =>
    cases result with
    | none => simp only [Exchange.incident, request.isThrowing]
    | some same => simp only [Exchange.incident, same.isRefusal]
  | stopped stop result => simp only [Exchange.incident, stop.isYield]

theorem Exchange.Same.opens {e f : Exchange} (same : e.Same ρ f) : e.opens = f.opens := by
  cases same with
  | asked request result =>
    cases result with
    | none => simp only [Exchange.opens, request.isClosing]
    | some same => rfl
  | stopped stop result => rfl

theorem filterMap_same {es fs : List Exchange} {β : Type} {f : Exchange → Option β}
    (respects : ∀ {e e'}, Exchange.Same ρ e e' → f e = f e') (same : List.Forall₂ (Exchange.Same ρ) es fs) :
    es.filterMap f = fs.filterMap f := by
  induction same with
  | nil => rfl
  | cons head _ ih => rw [List.filterMap_cons, List.filterMap_cons, respects head, ih]

theorem pastOf_same {es fs : List Exchange} (same : List.Forall₂ (Exchange.Same ρ) es fs) : pastOf es = pastOf fs :=
  filterMap_same Exchange.Same.incident same

theorem closingOf_same {es fs : List Exchange} (same : List.Forall₂ (Exchange.Same ρ) es fs) :
    closingOf es = closingOf fs := by
  rw [closingOf, closingOf, filterMap_same Exchange.Same.opens same]

theorem Stage.answer_same (blank : ρ nothing nothing) {i j : Injection} (same : i.Same ρ j) (kind : GeneratorKind)
    (valued : Bool) (p : Stage) :
    Option.Rel (Resumption.Same ρ) (p.answer kind i valued) (p.answer kind j valued) := by
  cases p with
  | fresh =>
    simp only [Stage.answer, same.isClosing]
    split
    · exact .some .refused
    · split
      · exact .some (.returned blank)
      · exact .none
  | stepping throwing => exact .some .refused
  | suspended => exact .none
  | finished =>
    simp only [Stage.answer, Injection.farewell, same.isClosing]
    split
    · exact .some (.returned blank)
    · exact .some .refused

theorem Ending.settled_same (blank : ρ nothing nothing) {e f : Ending} (same : e.Same ρ f) (kind : GeneratorKind)
    (closing : Bool) : (e.settled kind closing).Same ρ (f.settled kind closing) := by
  cases same with
  | yields value =>
    simp only [Ending.settled]
    split
    · exact .raised (Exception.Same.runtimeError _)
    · exact .yielded value
  | returns value =>
    simp only [Ending.settled]
    split
    · exact .returned blank
    · exact .returned value
  | raises exception =>
    simp only [Ending.settled, exception.1]
    split
    · exact .returned blank
    · split
      · exact .raised (Exception.Same.runtimeError _)
      · exact .raised exception
  | panics => exact .panicked

end Same

/-! ## Bodies that behave alike -/

/-- The body stops as its behaviour says, after what was said before. -/
def Exchange.Follows (b : List Exchange → Ending) (before : List Exchange) : Exchange → Prop
  | .asked .. => True
  | .stopped ending _ => ending = b before

instance Exchange.decidableFollows (b : List Exchange → Ending) (before : List Exchange) :
    (e : Exchange) → Decidable (e.Follows b before)
  | .asked .. => .isTrue trivial
  | .stopped ending _ => inferInstanceAs (Decidable (ending = b before))

/-- Bodies that stop in the same way after the same exchanges. -/
def BehaveAlike (ρ : ObjId → ObjId → Prop) (b b' : List Exchange → Ending) : Prop :=
  ∀ es fs, List.Forall₂ (Exchange.Same ρ) es fs → (b es).Same ρ (b' fs)

theorem Exception.Same.eq {e f : Exception} (same : e.Same (· = ·) f) : e = f := by
  obtain ⟨kind, message, value⟩ := e
  obtain ⟨kind', message', value'⟩ := f
  obtain ⟨rfl, rfl, value⟩ := same
  cases value with
  | none => rfl
  | some value => rw [value]

theorem Resumption.Same.eq {r s : Resumption} (same : r.Same (· = ·) s) : r = s := by
  cases same with
  | yielded value => rw [value]
  | returned value => rw [value]
  | raised exception => rw [exception.eq]
  | _ => rfl

theorem Exchange.Same.eq {e f : Exchange} (same : e.Same (· = ·) f) : e = f := by
  cases same with
  | asked request result =>
    congr
    · cases request with
      | send value => rw [value]
      | throw exception => rw [exception.eq]
      | close => rfl
    · cases result with
      | none => rfl
      | some result => rw [result.eq]
  | stopped stop result =>
    congr
    · cases stop with
      | yields value => rw [value]
      | returns value => rw [value]
      | raises exception => rw [exception.eq]
      | panics => rfl
    · exact result.eq

theorem Ending.Same.refl (e : Ending) : e.Same (· = ·) e := by
  cases e with
  | yields o => exact .yields rfl
  | returns o => exact .returns rfl
  | raises e =>
    refine .raises ⟨rfl, rfl, ?_⟩
    cases e.value with
    | none => exact .none
    | some o => exact .some rfl
  | panics p => exact .panics

/-- One body in two contexts that are served the same objects. -/
theorem BehaveAlike.refl (b : List Exchange → Ending) : BehaveAlike (· = ·) b b := by
  intro es fs same
  have eq : es = fs := by
    induction same with
    | nil => rfl
    | cons head _ ih => rw [head.eq, ih]
  rw [eq]
  exact .refl _

theorem forall₂_concat {R : Exchange → Exchange → Prop} {es fs : List Exchange} {e : Exchange}
    (related : List.Forall₂ R (es ++ [e]) fs) : ∃ fs' f, fs = fs' ++ [f] ∧ List.Forall₂ R es fs' ∧ R e f := by
  induction es generalizing fs with
  | nil =>
    obtain ⟨f, fs', last, rest, rfl⟩ := List.forall₂_cons_left_iff.mp related
    cases rest
    exact ⟨[], f, rfl, .nil, last⟩
  | cons head es ih =>
    obtain ⟨f, fs', first, rest, rfl⟩ := List.forall₂_cons_left_iff.mp related
    obtain ⟨fs'', f', rfl, init, last⟩ := ih rest
    exact ⟨f :: fs'', f', rfl, .cons first init, last⟩

/-- The same question after the same exchanges gets the same answer. -/
theorem Exchange.Alike.same {ρ : ObjId → ObjId → Prop} {kind : GeneratorKind} {b b' : List Exchange → Ending}
    {es fs : List Exchange} {e f : Exchange} (blank : ρ nothing nothing) (behave : BehaveAlike ρ b b')
    (before : List.Forall₂ (Exchange.Same ρ) es fs) (alike : e.Alike ρ f) (answered : e.Answered kind es)
    (answered' : f.Answered kind fs) (follows : e.Follows b es) (follows' : f.Follows b' fs) : e.Same ρ f := by
  cases alike with
  | asked request =>
    simp only [Exchange.Answered] at answered answered'
    rw [answered, answered', pastOf_same before]
    exact .asked request (Stage.answer_same blank request ..)
  | stopped =>
    simp only [Exchange.Answered, Exchange.Follows] at answered answered' follows follows'
    rw [answered, answered', follows, follows', closingOf_same before]
    exact .stopped (behave _ _ before) (Ending.settled_same blank (behave _ _ before) ..)

theorem same_of_alike {ρ : ObjId → ObjId → Prop} {kind : GeneratorKind} {b b' : List Exchange → Ending}
    {es fs : List Exchange} (blank : ρ nothing nothing) (behave : BehaveAlike ρ b b')
    (answered : Throughout (Exchange.Answered kind) es) (answered' : Throughout (Exchange.Answered kind) fs)
    (follows : Throughout (Exchange.Follows b) es) (follows' : Throughout (Exchange.Follows b') fs)
    (alike : List.Forall₂ (Exchange.Alike ρ) es fs) : List.Forall₂ (Exchange.Same ρ) es fs := by
  induction es using List.reverseRecOn generalizing fs with
  | nil =>
    cases alike
    exact .nil
  | append_singleton es e ih =>
    obtain ⟨fs, f, rfl, alike, last⟩ := forall₂_concat alike
    obtain ⟨answered, right⟩ := throughout_concat.mp answered
    obtain ⟨answered', right'⟩ := throughout_concat.mp answered'
    obtain ⟨follows, stop⟩ := throughout_concat.mp follows
    obtain ⟨follows', stop'⟩ := throughout_concat.mp follows'
    -- the last exchange is judged by those before it, which are the same on both sides
    have before := ih answered answered' follows follows' alike
    exact List.rel_append before (.cons (last.same blank behave before right right' stop stop') .nil)

/-! ## Contexts that look alike -/

/-- A state without the exception in flight, of which an interpreted context does not tell. -/
def GenState.muted : GenState → GenState
  | .throwing => .running
  | s => s

/-- Everybody sees the same of both contexts, but only the first tells of an exception in flight. -/
structure LookAlike {ε' : Type} (w : World ε) (g : GenId) (v : World ε') (k : GenId) : Prop where
  isCompleted : w.isCompleted g = v.isCompleted k
  isJustStarted : w.isJustStarted g = v.isJustStarted k
  isExecuting : w.isExecuting g = v.isExecuting k
  isRunnable : w.isRunnable g = v.isRunnable k
  yieldPoint : w.yieldPoint g = v.yieldPoint k
  state : (w.stateOf g).muted = v.stateOf k

theorem Config.InStage.lookAlike {ε' : Type} {c : Config ε} {d : Config ε'} {g k : GenId} {past : List Incident}
    (stage : c.InStage g past) (stage' : d.InStage k past) (plain : (d.world.generator k).isCompiled = false) :
    LookAlike c.world g d.world k where
  isCompleted := by rw [stage.shows.isCompleted, stage'.shows.isCompleted]
  isJustStarted := by rw [stage.shows.isJustStarted, stage'.shows.isJustStarted]
  isExecuting := by rw [stage.isExecuting, stage'.isExecuting]
  isRunnable := by rw [stage.isRunnable, stage'.isRunnable]
  yieldPoint := by rw [stage.yieldPoint, stage'.yieldPoint]
  state := by
    rw [stage.shows.stateOf, stage'.shows.stateOf, plain]
    cases stageOf past with
    | stepping throwing => cases throwing <;> cases (c.world.generator g).isCompiled <;> rfl
    | _ => rfl

/-- Two programs, each with a context: one of any backing, such as a compiled one, and an interpreted one of the
same kind, with bodies that behave alike. If the contexts are asked the same, they answer the same and look alike,
wherever the programs stand, between requests and inside the bodies. That the questions are the same does not say
that the same ones are handed to the bodies; this is part of the answer. -/
theorem backings_equivalent {ε' : Type} {host : ε} {host' : ε'} {c : Config ε} {d : Config ε'} {g k : GenId}
    {es fs : List Exchange} {ρ : ObjId → ObjId → Prop} {b b' : List Exchange → Ending}
    (dialogue : Dialogue g (Config.start host) es c) (dialogue' : Dialogue k (Config.start host') fs d)
    (has : c.world.Has (.generator g)) (has' : d.world.Has (.generator k))
    (interpreted : (d.world.generator k).isCompiled = false)
    (kind : (c.world.generator g).kind = (d.world.generator k).kind)
    (blank : ρ nothing nothing) (behave : BehaveAlike ρ b b')
    (follows : Throughout (Exchange.Follows b) es) (follows' : Throughout (Exchange.Follows b') fs)
    (alike : List.Forall₂ (Exchange.Alike ρ) es fs) :
    List.Forall₂ (Exchange.Same ρ) es fs ∧ LookAlike c.world g d.world k := by
  have told := dialogue.told
  have told' := dialogue'.told
  obtain ⟨ls, lively, past⟩ := told.lively
  obtain ⟨ls', lively', past'⟩ := told'.lively
  obtain ⟨_, answered, known⟩ := told.answered
  obtain ⟨_, answered', known'⟩ := told'.answered
  rw [← known has, kind] at answered
  rw [← known' has'] at answered'
  have same := same_of_alike blank behave answered answered' follows follows' alike
  have stage := lively.stage g has
  have stage' := lively'.stage k has'
  rw [past, pastOf_same same] at stage
  rw [past'] at stage'
  exact ⟨same, stage.lookAlike stage' interpreted⟩

/-- A body that yields an object until `n` exchanges have gone by, and panics then. -/
def yieldUntil (n : Nat) (o : ObjId) (es : List Exchange) : Ending :=
  if es.length < n then .yields o else .panics (.body "spent")

theorem yieldUntil_alike {ρ : ObjId → ObjId → Prop} {o p : ObjId} (n : Nat) (value : ρ o p) :
    BehaveAlike ρ (yieldUntil n o) (yieldUntil n p) := by
  intro es fs same
  simp only [yieldUntil, same.length_eq]
  split
  · exact .yields value
  · exact .panics

/-- A context yields an object, the object is thrown into it, and its body asks it to close. -/
def throwBack (o : ObjId) : List Play :=
  [.call (.clone (.object nothing)), .ask 0 (.send nothing) none, .stop (.yields o),
    .ask 0 (.throw ⟨.valueError, "no", some o⟩) none, .call (.clone (.generator 0)), .ask 0 .close none]

def throwBackTalk (kind : GeneratorKind) (o : ObjId) : List Exchange :=
  [.asked (.send nothing) false none, .stopped (.yields o) (.done (.yielded o)),
    .asked (.throw ⟨.valueError, "no", some o⟩) false none,
    .asked .close false (some (.refused (.alreadyExecuting kind)))]

/-- The compiled body yields the object 1 and the interpreted one the object 2. The objects are thrown back, and
each body asks its own context to close. Only the compiled context tells of the exception then. -/
theorem backings_equivalent_thrown :
    ∃ (es fs : List Exchange) (c d : Config Unit), Dialogue 0 (Config.start ()) es c ∧
      Dialogue 0 (Config.start ()) fs d ∧ es = throwBackTalk .coroutine 1 ∧
      List.Forall₂ (Exchange.Same fun o p => (o, p) ∈ [(nothing, nothing), (1, 2)]) es fs ∧
      LookAlike c.world 0 d.world 0 ∧ c.world.stateOf 0 = .throwing ∧ d.world.stateOf 0 = .running := by
  let stands (o : ObjId) (compiled : Bool) (state : GenState) (es : List Exchange) (c : Config Unit) : Bool :=
    decide (es = throwBackTalk .coroutine o) && decide (c.world.Has (.generator 0)) &&
      (c.world.generator 0).isCompiled == compiled && decide ((c.world.generator 0).kind = .coroutine) &&
      decide (c.world.stateOf 0 = state)
  obtain ⟨es, c, dialogue, holds⟩ := exists_dialogue (p := stands 1 true .throwing)
    (.call (.newObject .int (.int 5)) ::
      .call (.newCompiled .coroutine { module := "m", name := "f" } none 0) :: throwBack 1)
    (by decide +kernel : ((Config.start ()).converse? 0 _).any _ = true)
  obtain ⟨fs, d, dialogue', holds'⟩ := exists_dialogue (p := stands 2 false .running)
    (.call (.newObject .int (.int 4)) :: .call (.newObject .int (.int 5)) ::
      .call (.newRecord { code := { module := "m", name := "f" } }) ::
      .call (.newInterpreted .coroutine 0 0) :: throwBack 2)
    (by decide +kernel : ((Config.start ()).converse? 0 _).any _ = true)
  unfold stands at holds holds'
  simp only [Bool.and_eq_true, decide_eq_true_eq, beq_iff_eq] at holds holds'
  obtain ⟨⟨⟨⟨rfl, has⟩, -⟩, kind⟩, throwing⟩ := holds
  obtain ⟨⟨⟨⟨rfl, has'⟩, interpreted⟩, kind'⟩, running⟩ := holds'
  obtain ⟨same, look⟩ := backings_equivalent (ρ := fun o p => (o, p) ∈ [(nothing, nothing), (1, 2)])
    dialogue dialogue' has has' interpreted (kind.trans kind'.symm) (by decide)
    (yieldUntil_alike (o := 1) (p := 2) 4 (by decide))
    (by decide) (by decide)
    (.cons (.asked (.send (by decide))) <| .cons .stopped <|
      .cons (.asked (.throw ⟨rfl, rfl, .some (by decide)⟩)) <| .cons (.asked .close) .nil)
  exact ⟨_, _, c, d, dialogue, dialogue', rfl, same, look, throwing, running⟩

end Activation
