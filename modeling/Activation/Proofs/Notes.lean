import Activation.Proofs.Play

/-! # Notes along a run

Some statements about a state of a program are about how it was reached. What they need to know of the past is
written down on the way.

* `Noted rule note`: any number of steps that all keep to a rule, with the notes taken along them.
* `Config.exists_noted`: what is played is such a run.
-/

namespace Activation
set_option autoImplicit false

variable {ε α : Type}

/-- `note` says what a step adds to the notes, judging by the world before it. -/
inductive Noted (rule : Config ε → Label → Config ε → Prop) (note : World ε → Label → α → α) (c : Config ε)
    (blank : α) : List Label → Config ε → α → Prop where
  | nil : Noted rule note c blank [] c blank
  | snoc {ls : List Label} {l : Label} {d e : Config ε} {notes : α} (init : Noted rule note c blank ls d notes)
      (step : Step d l e) (kept : rule d l e) : Noted rule note c blank (ls ++ [l]) e (note d.world l notes)

namespace Noted

variable {rule : Config ε → Label → Config ε → Prop} {note : World ε → Label → α → α} {c d e : Config ε}
  {ls ms : List Label} {l : Label} {blank notes later : α}

theorem single (step : Step c l d) (kept : rule c l d) : Noted rule note c blank [l] d (note c.world l blank) :=
  .snoc .nil step kept

theorem trans (first : Noted rule note c blank ls d notes) (onward : Noted rule note d notes ms e later) :
    Noted rule note c blank (ls ++ ms) e later := by
  induction onward with
  | nil => simpa using first
  | snoc _ step kept ih =>
    rw [← List.append_assoc]
    exact .snoc ih step kept

theorem run (noted : Noted rule note c blank ls d notes) : Run c ls d := by
  induction noted with
  | nil => exact .nil
  | snoc _ step _ ih => exact .snoc ih step

end Noted

namespace Config

variable (rule : Config ε → Label → Config ε → Prop) [∀ c l d, Decidable (rule c l d)]
  (note : World ε → Label → α → α)

/-- All moves in order, as long as each keeps to a rule, with the notes. -/
def noteAll? (c : Config ε) (notes : α) : List Play → Option (List Label × Config ε × α)
  | [] => some ([], c, notes)
  | k :: ks =>
    match c.play? k with
    | none => none
    | some (l, d) =>
      if rule c l d then (noteAll? d (note c.world l notes) ks).map fun r => (l :: r.1, r.2) else none

variable {rule note}

theorem noted_of_noteAll? {c d : Config ε} {ks : List Play} {ls : List Label} {blank notes : α}
    (played : noteAll? rule note c blank ks = some (ls, d, notes)) : Noted rule note c blank ls d notes := by
  induction ks generalizing c ls blank with
  | nil =>
    cases played
    exact .nil
  | cons k ks ih =>
    simp only [noteAll?] at played
    split at played
    · cases played
    · next l e first =>
      split at played
      · next kept =>
        obtain ⟨⟨ms, d', notes'⟩, later, eq⟩ := Option.map_eq_some_iff.mp played
        cases eq
        exact (Noted.single (step_of_play? first) kept).trans (ih later)
      · cases played

/-- A computed fact about a list of moves is a fact about a run with notes. -/
theorem exists_noted {c : Config ε} {blank : α} (ks : List Play) {p : Config ε → α → Bool}
    (holds : (noteAll? rule note c blank ks).any (fun r => p r.2.1 r.2.2) = true) :
    ∃ ls d notes, Noted rule note c blank ls d notes ∧ p d notes = true := by
  cases played : noteAll? rule note c blank ks with
  | none => rw [played] at holds; cases holds
  | some r =>
    rw [played] at holds
    exact ⟨r.1, r.2.1, r.2.2, noted_of_noteAll? played, holds⟩

end Config

end Activation
