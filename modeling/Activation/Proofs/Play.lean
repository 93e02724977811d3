import Activation.Proofs.Program
import Mathlib.Algebra.Order.Group.Multiset
import Mathlib.Algebra.Order.Sub.Unbundled.Basic

/-! # Playing programs

Runs can be computed: a program that is given as a list of moves is played move by move, with all handles
checked on the way.

* `Play`: a call, a request, or the end of the innermost turn.
* `Config.play?`: one move, if the program has the handles for it.
* `Config.playAll?`, `Config.keepAll?`: a list of moves, and one where each move keeps to a rule.
* `Config.exists_run`, `Config.exists_kept`: what is played is a run.
* `Config.actAll?`, `Config.exists_course`: the same for programs whose calls need not be mild.
-/

namespace Activation
set_option autoImplicit false

variable {ε : Type}

inductive Play where
  | call (op : Op)
  | ask (g : GenId) (inj : Injection) (external : Option RecordId)
  | stop (ending : Ending)

instance World.decidableHas (w : World ε) : (h : Handle) → Decidable (w.Has h)
  | .object o => inferInstanceAs (Decidable ((w.objects.get? o).isSome = true))
  | .record r => inferInstanceAs (Decidable ((w.records.get? r).isSome = true))
  | .frame f => inferInstanceAs (Decidable ((w.frames.get? f).isSome = true))
  | .below f => inferInstanceAs (Decidable ((w.frames.get? f).isSome = true))
  | .generator g => inferInstanceAs (Decidable ((w.generators.get? g).isSome = true))

instance Op.decidableFits (w : World ε) (op : Op) : Decidable (op.Fits w) := by
  unfold Op.Fits
  split <;> infer_instance

instance Op.decidableMild (op : Op) : Decidable op.Mild := by
  unfold Op.Mild
  split <;> infer_instance

namespace Config

/-- One move, and what happens in it. -/
def play? (c : Config ε) : Play → Option (Label × Config ε)
  | .call op =>
    if (∀ h ∈ op.names, c.world.Has h) ∧ op.Fits c.world ∧ (op.takes : Multiset Handle) ≤ c.owned ∧ op.Mild then
      some (.op op, { c with
        world := (op.run c.world).2
        owned := ↑(op.run c.world).1 + (c.owned - ↑op.takes) })
    else none
  | .ask g inj external =>
    if (.generator g ::ₘ (inj.offered external : Multiset Handle)) ≤ c.owned then
      let rest := c.owned - (.generator g ::ₘ (inj.offered external : Multiset Handle))
      match c.world.receive g inj external with
      | .answered result w =>
        some (.answered g inj external (World.settlePanic result w).1, { c with
          world := (World.settlePanic result w).2
          owned := .generator g ::ₘ (((World.settlePanic result w).1.held : Multiset Handle) + rest) })
      | .entered t w =>
        some (.entered t inj external, { c with
          world := w, turns := t :: c.turns, owned := ↑inj.held + rest })
    else none
  | .stop ending =>
    match c.turns with
    | [] => none
    | t :: turns =>
      let result := (c.world.finish t ending).1
      if (ending.held : Multiset Handle) ≤ c.owned then
        let rest := c.owned - (ending.held : Multiset Handle)
        if c.world.stack.current = some t.frame then
          some (.ended t ending result, { c with
            world := (c.world.finish t ending).2
            turns := turns
            owned := .generator t.context ::ₘ ((result.held : Multiset Handle) + rest) })
        else if ending.isPanic then none
        else
          some (.strayed t ending result,
            ⟨(c.world.finish t ending).2, turns, .generator t.context ::ₘ rest, ↑ending.held + c.lost⟩)
      else none

/-- All moves in order, and what happens in each. -/
def playAll? (c : Config ε) : List Play → Option (List Label × Config ε)
  | [] => some ([], c)
  | k :: ks =>
    match c.play? k with
    | none => none
    | some (l, d) => (d.playAll? ks).map fun r => (l :: r.1, r.2)

theorem step_of_play? {c d : Config ε} {k : Play} {l : Label} (played : c.play? k = some (l, d)) :
    Step c l d := by
  cases k with
  | call op =>
    simp only [play?] at played
    split at played
    · next ok =>
      obtain ⟨named, fits, enough, mild⟩ := ok
      cases played
      exact .op op named fits (add_tsub_cancel_of_le enough).symm mild
    · cases played
  | ask g inj external =>
    simp only [play?] at played
    split at played
    · next enough =>
      have takes := (add_tsub_cancel_of_le enough).symm
      rw [Multiset.cons_add] at takes
      split at played
      · next received =>
        cases played
        exact .answered takes received
      · next received =>
        cases played
        exact .entered takes received
    · cases played
  | stop ending =>
    simp only [play?] at played
    split at played
    · cases played
    · next t turns innermost =>
      split at played
      · next enough =>
        have takes := (add_tsub_cancel_of_le enough).symm
        split at played
        · next balanced =>
          cases played
          exact .ended innermost balanced takes
        · next unbalanced =>
          split at played
          · cases played
          · next calm =>
            cases played
            exact .strayed innermost unbalanced (by simpa using calm) takes
      · cases played

theorem run_of_playAll? {c d : Config ε} {ks : List Play} {ls : List Label}
    (played : c.playAll? ks = some (ls, d)) : Run c ls d := by
  induction ks generalizing c ls with
  | nil =>
    cases played
    exact .nil
  | cons k ks ih =>
    simp only [playAll?] at played
    split at played
    · cases played
    · next l e first =>
      obtain ⟨⟨ms, d'⟩, later, eq⟩ := Option.map_eq_some_iff.mp played
      cases eq
      exact (Run.single (step_of_play? first)).trans (ih later)

/-- A computed fact about a list of moves is a fact about a run. -/
theorem exists_run {c : Config ε} (ks : List Play) {p : List Label → Config ε → Bool}
    (holds : (c.playAll? ks).any (fun r => p r.1 r.2) = true) : ∃ ls d, Run c ls d ∧ p ls d = true := by
  obtain ⟨⟨ls, d⟩, played, fact⟩ := Option.any_eq_true _ _ |>.mp holds
  exact ⟨ls, d, run_of_playAll? played, fact⟩

/-- All moves in order, as long as each keeps to a rule. -/
def keepAll? (rule : Config ε → Label → Prop) [∀ c l, Decidable (rule c l)] (c : Config ε) :
    List Play → Option (List Label × Config ε)
  | [] => some ([], c)
  | k :: ks =>
    match c.play? k with
    | none => none
    | some (l, d) => if rule c l then (keepAll? rule d ks).map fun r => (l :: r.1, r.2) else none

theorem kept_of_keepAll? {rule : Config ε → Label → Prop} [∀ c l, Decidable (rule c l)] {c d : Config ε}
    {ks : List Play} {ls : List Label} (played : keepAll? rule c ks = some (ls, d)) : Kept rule c ls d := by
  induction ks generalizing c ls with
  | nil =>
    cases played
    exact .nil
  | cons k ks ih =>
    simp only [keepAll?] at played
    split at played
    · cases played
    · next l e first =>
      split at played
      · next kept =>
        obtain ⟨⟨ms, d'⟩, later, eq⟩ := Option.map_eq_some_iff.mp played
        cases eq
        exact (Kept.single (step_of_play? first) kept).trans (ih later)
      · cases played

theorem exists_kept {rule : Config ε → Label → Prop} [∀ c l, Decidable (rule c l)] {c : Config ε}
    (ks : List Play) {p : List Label → Config ε → Bool}
    (holds : (keepAll? rule c ks).any (fun r => p r.1 r.2) = true) :
    ∃ ls d, Kept rule c ls d ∧ p ls d = true := by
  obtain ⟨⟨ls, d⟩, played, fact⟩ := Option.any_eq_true _ _ |>.mp holds
  exact ⟨ls, d, kept_of_keepAll? played, fact⟩

/-! ## Calls that need not be mild -/

def act? (c : Config ε) : Play → Option (Label × Config ε)
  | .call op =>
    if (∀ h ∈ op.names, c.world.Has h) ∧ op.Fits c.world ∧ (op.takes : Multiset Handle) ≤ c.owned then
      some (.op op, { c with
        world := (op.run c.world).2.catchPanic.2
        owned := ↑(op.run c.world).1 + (c.owned - ↑op.takes) })
    else none
  | k => c.play? k

theorem act_of_act? {c d : Config ε} {k : Play} {l : Label} (acted : c.act? k = some (l, d)) : Act c l d := by
  cases k with
  | call op =>
    simp only [act?] at acted
    split at acted
    · next ok =>
      obtain ⟨named, fits, enough⟩ := ok
      cases acted
      exact .call op named fits (add_tsub_cancel_of_le enough).symm
    · cases acted
  | ask g inj external => exact .step (step_of_play? (k := .ask g inj external) acted)
  | stop ending => exact .step (step_of_play? (k := .stop ending) acted)

/-- All moves in order, as long as each keeps to a rule and none ends the program. -/
def actAll? (rule : Config ε → Label → Prop) [∀ c l, Decidable (rule c l)] (c : Config ε) :
    List Play → Option (List Label × Config ε)
  | [] => some ([], c)
  | k :: ks =>
    match c.act? k with
    | none => none
    | some (l, d) =>
      if rule c l ∧ d.world.fault = none then (actAll? rule d ks).map fun r => (l :: r.1, r.2) else none

theorem course_of_actAll? {rule : Config ε → Label → Prop} [∀ c l, Decidable (rule c l)] {c d : Config ε}
    {ks : List Play} {ls : List Label} (acted : actAll? rule c ks = some (ls, d)) : Course rule c ls d := by
  induction ks generalizing c ls with
  | nil =>
    cases acted
    exact .nil
  | cons k ks ih =>
    simp only [actAll?] at acted
    split at acted
    · cases acted
    · next l e first =>
      split at acted
      · next ok =>
        obtain ⟨kept, alive⟩ := ok
        obtain ⟨⟨ms, d'⟩, later, eq⟩ := Option.map_eq_some_iff.mp acted
        cases eq
        exact (Course.single (act_of_act? first) kept alive).trans (ih later)
      · cases acted

theorem exists_course {rule : Config ε → Label → Prop} [∀ c l, Decidable (rule c l)] {c : Config ε}
    (ks : List Play) {p : List Label → Config ε → Bool}
    (holds : (actAll? rule c ks).any (fun r => p r.1 r.2) = true) :
    ∃ ls d, Course rule c ls d ∧ p ls d = true := by
  obtain ⟨⟨ls, d⟩, acted, fact⟩ := Option.any_eq_true _ _ |>.mp holds
  exact ⟨ls, d, course_of_actAll? acted, fact⟩

end Config

end Activation
