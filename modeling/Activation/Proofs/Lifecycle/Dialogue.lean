import Activation.Proofs.Lifecycle.Answers

/-! # Dialogues with a context

What a context is told and what it answers, through a whole program.

* `Exchange`: a request to a context with its answer, or the end of a turn with the answer that it gives.
* `Dialogue g c es d`: a lawful and tidy run, in which the context `g` goes through the exchanges `es`.
* `Config.converse?`: a dialogue from a list of moves.
* `Throughout p es`: every exchange fits what was said before it, in the sense of `p`.
* `Exchange.Answered kind`: the exchange is answered by stage and kind alone.
* `Dialogue.told`: what is known of a context after a dialogue; all its answers are of this sort.
-/

namespace Activation
set_option autoImplicit false

variable {ε : Type}

/-! ## Dialogues -/

inductive Exchange where
  /-- A request; `valued` if it sends a value other than the missing one. A request that is handed to the body has
  no answer yet. -/
  | asked (inj : Injection) (valued : Bool) (answer : Option Resumption)
  /-- The body stops, and the request that it was handed is answered. -/
  | stopped (ending : Ending) (answer : Resumption)
deriving DecidableEq

def Label.exchange (w : World ε) (g : GenId) : Label → Option Exchange
  | .answered k inj _ result => if k = g then some (.asked inj (w.sendsValue inj) (some result)) else none
  | .entered t inj _ => if t.context = g then some (.asked inj (w.sendsValue inj) none) else none
  | .ended t ending result => if t.context = g then some (.stopped ending result) else none
  | _ => none

inductive Dialogue (g : GenId) (c : Config ε) : List Exchange → Config ε → Prop where
  | nil : Dialogue g c [] c
  | snoc {es : List Exchange} {l : Label} {d e : Config ε} (init : Dialogue g c es d) (step : Step d l e)
      (lawful : l.Lawful d) (tidy : l.Tidy d) : Dialogue g c (es ++ (l.exchange d.world g).toList) e

theorem Dialogue.cons {g : GenId} {c d e : Config ε} {l : Label} {es : List Exchange} (step : Step c l d)
    (lawful : l.Lawful c) (tidy : l.Tidy c) (rest : Dialogue g d es e) :
    Dialogue g c ((l.exchange c.world g).toList ++ es) e := by
  induction rest with
  | nil => simpa using Dialogue.nil.snoc step lawful tidy
  | snoc _ next lawful tidy ih =>
    rw [← List.append_assoc]
    exact ih.snoc next lawful tidy

/-- Plays all moves in order, as long as they are lawful and tidy, and takes down what the context is told. -/
def Config.converse? (g : GenId) (c : Config ε) : List Play → Option (List Exchange × Config ε)
  | [] => some ([], c)
  | k :: ks =>
    match c.play? k with
    | none => none
    | some (l, d) =>
      if l.Lawful c ∧ l.Tidy c then
        (d.converse? g ks).map fun r => ((l.exchange c.world g).toList ++ r.1, r.2)
      else none

theorem dialogue_of_converse? {g : GenId} {c d : Config ε} {ks : List Play} {es : List Exchange}
    (played : c.converse? g ks = some (es, d)) : Dialogue g c es d := by
  induction ks generalizing c es with
  | nil =>
    cases played
    exact .nil
  | cons k ks ih =>
    simp only [Config.converse?] at played
    split at played
    · cases played
    · next l e first =>
      split at played
      · next kept =>
        obtain ⟨⟨fs, d'⟩, later, eq⟩ := Option.map_eq_some_iff.mp played
        cases eq
        exact .cons (Config.step_of_play? first) kept.1 kept.2 (ih later)
      · cases played

theorem exists_dialogue {g : GenId} {c : Config ε} (ks : List Play) {p : List Exchange → Config ε → Bool}
    (holds : (c.converse? g ks).any (fun r => p r.1 r.2) = true) : ∃ es d, Dialogue g c es d ∧ p es d = true := by
  cases played : c.converse? g ks with
  | none => rw [played] at holds; cases holds
  | some r =>
    rw [played] at holds
    exact ⟨r.1, r.2, dialogue_of_converse? played, holds⟩

/-- What happens to a context in an exchange. -/
def Exchange.incident : Exchange → Option Incident
  | .asked inj _ none => some (.begun inj.isThrowing)
  | .asked _ _ (some result) => if result.isRefusal then none else some .finished
  | .stopped ending _ => some (if ending.isYield then .yielded else .finished)

/-- Whether the body is to close that is entered in an exchange. -/
def Exchange.opens : Exchange → Option Bool
  | .asked inj _ none => some inj.isClosing
  | _ => none

def pastOf (es : List Exchange) : List Incident := es.filterMap Exchange.incident

/-- Whether the body that was entered last is to close. -/
def closingOf (es : List Exchange) : Bool := (es.filterMap Exchange.opens).getLast?.getD false

theorem pastOf_append (es fs : List Exchange) : pastOf (es ++ fs) = pastOf es ++ pastOf fs :=
  List.filterMap_append ..

theorem closingOf_concat (es : List Exchange) (e : Exchange) :
    closingOf (es ++ [e]) = e.opens.getD (closingOf es) := by
  cases opens : e.opens <;> simp [closingOf, List.filterMap_append, opens]

theorem pastOf_exchange (w : World ε) (g : GenId) (l : Label) :
    pastOf (l.exchange w g).toList = (l.incident g).toList := by
  cases l with
  | answered k inj external result =>
    by_cases own : k = g
    · cases refusal : result.isRefusal <;> simp [Label.exchange, Label.incident, pastOf, Exchange.incident, own, refusal]
    · simp [Label.exchange, Label.incident, pastOf, own]
  | entered t inj external =>
    by_cases own : t.context = g <;> simp [Label.exchange, Label.incident, pastOf, Exchange.incident, own]
  | ended t ending result =>
    by_cases own : t.context = g <;> simp [Label.exchange, Label.incident, pastOf, Exchange.incident, own]
  | _ => rfl

/-! ## Answers by stage and kind -/

/-- Every exchange fits what was said before it. -/
def Throughout (p : List Exchange → Exchange → Prop) (es : List Exchange) : Prop :=
  ∀ i e, es[i]? = some e → p (es.take i) e

instance Throughout.decidable {p : List Exchange → Exchange → Prop} [∀ es e, Decidable (p es e)]
    (es : List Exchange) : Decidable (Throughout p es) :=
  decidable_of_iff (∀ i < es.length, ∀ e ∈ es[i]?, p (es.take i) e)
    ⟨fun all i e found => all i (List.getElem?_eq_some_iff.mp found).1 e found, fun all i _ e found => all i e found⟩

theorem throughout_nil {p : List Exchange → Exchange → Prop} : Throughout p [] := by
  intro i e found
  cases found

theorem throughout_concat {p : List Exchange → Exchange → Prop} {es : List Exchange} {e : Exchange} :
    Throughout p (es ++ [e]) ↔ Throughout p es ∧ p es e := by
  have early : ∀ {i}, i < es.length → (es ++ [e])[i]? = es[i]? ∧ (es ++ [e]).take i = es.take i := fun inside =>
    ⟨List.getElem?_append_left inside, List.take_append_of_le_length (Nat.le_of_lt inside)⟩
  have last : (es ++ [e])[es.length]? = some e ∧ (es ++ [e]).take es.length = es :=
    ⟨List.getElem?_concat_length, List.take_left⟩
  constructor
  · intro all
    refine ⟨fun i f found => ?_, ?_⟩
    · obtain ⟨inside, -⟩ := List.getElem?_eq_some_iff.mp found
      rw [← (early inside).2]
      exact all i f ((early inside).1.trans found)
    · have here := all es.length e last.1
      rwa [last.2] at here
  · rintro ⟨all, fits⟩ i f found
    obtain ⟨inside, -⟩ := List.getElem?_eq_some_iff.mp found
    rw [List.length_append, List.length_singleton] at inside
    rcases Nat.lt_succ_iff_lt_or_eq.mp inside with before | rfl
    · rw [(early before).2]
      exact all i f ((early before).1.symm.trans found)
    · rw [last.2, ← Option.some.inj (last.1.symm.trans found)]
      exact fits

/-- The answer is the one for the stage and the kind of the context, after what was said before. -/
def Exchange.Answered (kind : GeneratorKind) (before : List Exchange) : Exchange → Prop
  | .asked inj valued answer => answer = (stageOf (pastOf before)).answer kind inj valued
  | .stopped ending answer => answer = ending.settled kind (closingOf before)

/-- What is known of a context after a dialogue. -/
structure Config.Told (c : Config ε) (g : GenId) (es : List Exchange) : Prop where
  lively : ∃ ls, c.Lively ls ∧ history g ls = pastOf es
  stacked : c.Stacked
  closing : ∀ t ∈ c.turns, t.context = g → t.closing = closingOf es
  unborn : c.world.generators.next ≤ g → es = []
  answered : ∃ kind, Throughout (Exchange.Answered kind) es ∧ (c.world.Has (.generator g) → (c.world.generator g).kind = kind)

namespace Step

variable {c d : Config ε} {l : Label} {g : GenId} {es : List Exchange}

theorem has_exchange {e : Exchange} (sound : c.Sound) (step : Step c l d)
    (told : l.exchange c.world g = some e) : c.world.Has (.generator g) ∧ d.world.Has (.generator g) := by
  cases l with
  | answered k inj external result =>
    simp only [Label.exchange, Option.ite_none_right_eq_some] at told
    exact told.1 ▸ step.has_asked sound
  | entered t inj external =>
    simp only [Label.exchange, Option.ite_none_right_eq_some] at told
    exact told.1 ▸ step.has_entered sound
  | ended t ending result =>
    simp only [Label.exchange, Option.ite_none_right_eq_some] at told
    exact told.1 ▸ step.has_ended sound
  | _ => cases told

theorem exchange_unborn (sound : c.Sound) (step : Step c l d) (late : c.world.generators.next ≤ g) :
    l.exchange c.world g = none := by
  cases told : l.exchange c.world g with
  | none => rfl
  | some e => exact absurd (World.lt_next_of_has (step.has_exchange sound told).1) (Nat.not_lt.mpr late)

theorem answered_exchange {e : Exchange} (told : c.Told g es) (step : Step c l d)
    (exchange : l.exchange c.world g = some e) : e.Answered (c.world.generator g).kind es := by
  obtain ⟨ls, lively, past⟩ := told.lively
  obtain ⟨before, -⟩ := step.has_exchange lively.sound exchange
  have stage := lively.stage g before
  rw [past] at stage
  cases l with
  | answered k inj external result =>
    simp only [Label.exchange, Option.ite_none_right_eq_some, Option.some.injEq] at exchange
    obtain ⟨rfl, rfl⟩ := exchange
    exact (step.answer lively.sound told.stacked stage).symm
  | entered t inj external =>
    simp only [Label.exchange, Option.ite_none_right_eq_some, Option.some.injEq] at exchange
    obtain ⟨rfl, rfl⟩ := exchange
    exact (step.no_answer lively.sound stage).symm
  | ended t ending result =>
    simp only [Label.exchange, Option.ite_none_right_eq_some, Option.some.injEq] at exchange
    obtain ⟨rfl, rfl⟩ := exchange
    obtain ⟨turns, -⟩ := step.ended_status lively.sound
    rw [Exchange.Answered, ← told.closing t (turns ▸ List.mem_cons_self ..) rfl]
    exact step.settled lively.sound
  | _ => cases exchange

/-- The request that a body is busy with. -/
theorem closing {ls : List Label} (lively : c.Lively ls) (step : Step c l d) (lawful : l.Lawful c)
    (before : ∀ t ∈ c.turns, t.context = g → t.closing = closingOf es) {t : Turn} (turn : t ∈ d.turns)
    (own : t.context = g) : t.closing = closingOf (es ++ (l.exchange c.world g).toList) := by
  have once := (step.orderly lively.sound lively.orderly).once
  cases l with
  | op call =>
    have turns : d.turns = c.turns := step.turns_eq
    simpa [Label.exchange] using before t (turns ▸ turn) own
  | quiet =>
    have turns : d.turns = c.turns := step.turns_eq
    simpa [Label.exchange] using before t (turns ▸ turn) own
  | answered k inj external result =>
    have turns : d.turns = c.turns := step.turns_eq
    have same := before t (turns ▸ turn) own
    by_cases asked : k = g
    · simpa [Label.exchange, asked, closingOf_concat, Exchange.opens] using same
    · simpa [Label.exchange, asked] using same
  | entered u inj external =>
    obtain ⟨body, -, shape, turns, -⟩ := step.entered_status lively.sound
    rw [turns, List.map_cons, List.nodup_cons] at once
    rw [turns] at turn
    rcases List.mem_cons.mp turn with rfl | old
    · simp only [Label.exchange, own, if_true, Option.toList_some, closingOf_concat]
      rw [shape]
      rfl
    · -- a context has one turn at a time
      have other : u.context ≠ g := fun same => once.1 (List.mem_map.mpr ⟨t, old, own.trans same.symm⟩)
      simpa [Label.exchange, other] using before t old own
  | ended u ending result =>
    obtain ⟨turns, -⟩ := step.ended_status lively.sound
    have once' := lively.orderly.once
    rw [turns, List.map_cons, List.nodup_cons] at once'
    have other : u.context ≠ g := fun same => once'.1 (List.mem_map.mpr ⟨t, turn, own.trans same.symm⟩)
    simpa [Label.exchange, other] using before t (turns ▸ List.mem_cons_of_mem u turn) own
  | strayed u ending result => exact lawful.elim

theorem told (told : c.Told g es) (step : Step c l d) (lawful : l.Lawful c) (tidy : l.Tidy c) :
    d.Told g (es ++ (l.exchange c.world g).toList) := by
  obtain ⟨ls, lively, past⟩ := told.lively
  refine ⟨⟨ls ++ [l], step.lively lively lawful, ?_⟩, step.stacked lively told.stacked lawful tidy,
    fun t turn own => step.closing lively lawful told.closing turn own, fun late => ?_, ?_⟩
  · rw [history_concat, past, pastOf_append, pastOf_exchange]
  · have early := (step.next_le lively.sound).trans late
    rw [told.unborn early, step.exchange_unborn lively.sound early]
    rfl
  · obtain ⟨kind, answered, known⟩ := told.answered
    cases exchange : l.exchange c.world g with
    | some e =>
      obtain ⟨before, after⟩ := step.has_exchange lively.sound exchange
      have same := (step.keeps_context lively.sound (World.lt_next_of_has before) after).2.1
      rw [← known before] at answered
      exact ⟨_, throughout_concat.mpr ⟨answered, step.answered_exchange told exchange⟩, fun _ => same⟩
    | none =>
      simp only [Option.toList_none, List.append_nil]
      rcases Nat.lt_or_ge g c.world.generators.next with given | late
      · refine ⟨kind, answered, fun after => ?_⟩
        obtain ⟨before, same, -⟩ := step.keeps_context lively.sound given after
        rw [same, known before]
      · -- the context may come into being in this step, and nothing was said to it before
        rw [told.unborn late]
        exact ⟨_, throughout_nil, fun _ => rfl⟩

end Step

theorem Dialogue.told {c : Config ε} {g : GenId} {es : List Exchange} {host : ε}
    (dialogue : Dialogue g (Config.start host) es c) : c.Told g es := by
  induction dialogue with
  | nil =>
    exact ⟨⟨[], Config.start_lively host, rfl⟩, Config.start_stacked host, nofun, fun _ => rfl,
      .generator, throughout_nil, nofun⟩
  | snoc _ step lawful tidy ih => exact step.told ih lawful tidy

end Activation
