import Activation.Proofs.Lifecycle.Straying

/-! # Lost bodies

A request takes the body out of its context before it binds the external record, and a record that is not needed is
given back right there. If that panics, nobody has the body any more, and nothing has been written down about it.

* `World.Waits`: the body of a context waits at a yield.
* `World.Bereft`: a compiled context that counts as waiting has lost its body.
* `World.Bereft.verdict`: it refuses every request as if its body were running.
* `World.resume_bereaves`: how this comes about, in any world whatever its counts and destructors.
* `Config.exists_bereft`: courses that end so can be computed.
-/

namespace Activation
set_option autoImplicit false

variable {ε : Type}

/-- The body waits at a yield. -/
structure World.Waits (w : World ε) (g : GenId) : Prop where
  idle : w.isExecuting g = false
  going : w.isCompleted g = false
  point : (w.yieldPoint g).isSome = true

structure World.Bereft (w : World ε) (g : GenId) (kind : GeneratorKind) : Prop where
  suspended : ∃ n, (w.generator g).backing = .compiled .running (n + 1)
  lost : (w.generator g).body = none
  kind : (w.generator g).kind = kind

namespace World

variable {w v : World ε} {g : GenId} {n : Nat} {inj : Injection} {kind : GeneratorKind}

theorem waits_of_suspended (suspended : (w.generator g).backing = .compiled .running (n + 1)) : w.Waits g where
  idle := by simp [isExecuting, suspended]
  going := by simp [isCompleted, suspended]
  point := by simp [yieldPoint, suspended]

/-- A context whose body waits at a yield hands every request to it, if it has it. -/
theorem verdict_of_suspended (suspended : (w.generator g).backing = .compiled .running (n + 1)) :
    w.verdict g inj = (w.generator g).body.elim (.refuse (.alreadyExecuting (w.generator g).kind)) .enter := by
  have waits := waits_of_suspended suspended
  have begun : w.isJustStarted g = false := by simp [isJustStarted, suspended]
  simp only [verdict, waits.idle, waits.going, begun, Bool.false_and, Bool.false_eq_true, if_false]
  cases (w.generator g).body <;> rfl

theorem Bereft.verdict (bereft : w.Bereft g kind) : w.verdict g inj = .refuse (.alreadyExecuting kind) := by
  obtain ⟨⟨n, suspended⟩, lost, same⟩ := bereft
  rw [verdict_of_suspended suspended, lost, same]
  rfl

theorem Bereft.of_generators (bereft : w.Bereft g kind) (same : v.generators = w.generators) : v.Bereft g kind := by
  have here : v.generator g = w.generator g := by rw [generator, generator, same]
  obtain ⟨suspended, lost, kind⟩ := bereft
  exact ⟨here ▸ suspended, here ▸ lost, here ▸ kind⟩

/-- Giving handles back does not give a body back. -/
theorem bereft_drop (bereft : w.Has (.generator g) → w.Bereft g kind) (hs : List Handle)
    (has : (w.drop hs).Has (.generator g)) : (w.drop hs).Bereft g kind := by
  have moves : Moves {} w (↑hs + 0) (w.drop hs) 0 := .drop w hs
  obtain ⟨y, found⟩ := Option.isSome_iff_exists.mp has
  rcases moves.steady.generators.origin g y found with ⟨x, before, keeps⟩ | ⟨-, born⟩
  · obtain ⟨⟨n, suspended⟩, lost, same⟩ := bereft (Option.isSome_iff_exists.mpr ⟨x, before⟩)
    obtain ⟨backing, body, -⟩ := keeps.still.resolve_left id
    rw [generator_of_get? before] at suspended lost same
    rw [← generator_of_get? found] at backing body
    exact ⟨⟨n, backing.trans suspended⟩, body.trans lost, by rw [generator_of_get? found, keeps.kind, same]⟩
  · exact born.elim

theorem bereft_bindRecord (bereft : w.Bereft g kind) {f : FrameId} {r : RecordId}
    (has : (w.bindRecord f r).2.Has (.generator g)) : (w.bindRecord f r).2.Bereft g kind := by
  unfold bindRecord at has ⊢
  by_cases full : (w.frame f).isMaterialized = true
  · rw [if_pos full] at has ⊢
    exact bereft_drop (fun _ => bereft) _ has
  · rw [if_neg full]
    exact bereft.of_generators rfl

theorem bereft_takeBody {external : Option RecordId} (suspended : (w.generator g).backing = .compiled .running (n + 1))
    (has : (w.takeBody g external).Has (.generator g)) :
    (w.takeBody g external).Bereft g (w.generator g).kind := by
  have taken : (w.modifyGenerator g fun x => { x with body := none }).Bereft g (w.generator g).kind := by
    cases found : w.generators.get? g with
    | none => simp [generator, found, Generator.absent] at suspended
    | some x =>
      rw [generator_of_get? found] at suspended ⊢
      have here : (w.modifyGenerator g fun x => { x with body := none }).generator g = { x with body := none } := by
        simp [generator, modifyGenerator, Store.get?_modify, found]
      exact ⟨⟨n, by rw [here]; exact suspended⟩, by rw [here], by rw [here]⟩
  cases external with
  | none => exact taken
  | some r => exact bereft_bindRecord taken has

/-- Giving back the external record panics. The request panics, and leaves a context that counts as waiting for the
next one, without its body. -/
theorem resume_bereaves (inj : Injection) {b : BodyId} {external : Option RecordId}
    (suspended : (w.generator g).backing = .compiled .running (n + 1)) (ready : (w.generator g).body = some b)
    (fails : (w.takeBody g external).isUnwinding = true) (program : Host ε) :
    (w.resume program g inj external).1.isPanic = true ∧
      ((w.resume program g inj external).2.Has (.generator g) →
        (w.resume program g inj external).2.Bereft g (w.generator g).kind) := by
  have verdict : w.verdict g inj = .enter b := by rw [verdict_of_suspended suspended, ready]; rfl
  have answer : w.resume program g inj external =
      settlePanic (.panicked .countOverflow) ((w.takeBody g external).drop inj.held) := by
    simp only [resume, attempt, receive, verdict, fails, if_true]
  rw [answer]
  refine ⟨?_, fun has => ?_⟩
  · unfold settlePanic
    split <;> rfl
  · have same := generators_settlePanic ((w.takeBody g external).drop inj.held) (.panicked .countOverflow)
    have dropped : ((w.takeBody g external).drop inj.held).Has (.generator g) := by rwa [Has, ← same]
    exact (bereft_drop (bereft_takeBody suspended) _ dropped).of_generators same

end World

/-! ## Courses that lose a body -/

/-- A count that cannot be made smaller. -/
def Count.lowest : Count := ⟨-0x8000000000000000, by decide, by decide⟩

/-- Such a course can be computed: the first context waits, a request that brings along the second record panics, and
the next request is refused although the context still counts as waiting. -/
def Config.bereaves (panic : Panic) (later : Injection) (kind : GeneratorKind) (c : Config Unit) : Bool :=
  let waits (w : World Unit) : Bool := !w.isExecuting 0 && !w.isCompleted 0 && (w.yieldPoint 0).isSome
  waits c.world && (c.play? (.ask 0 (.send nothing) (some 1))).any fun s =>
    decide (s.1.Ends c.world 0 (.panicked panic)) && decide (s.2.turns = []) && waits s.2.world &&
      decide ((s.2.world.resume (.building .absent) 0 later none).1 = .refused (.alreadyExecuting kind))

theorem Config.exists_bereft {rule : Config Unit → Label → Prop} [∀ c l, Decidable (rule c l)] (ks : List Play)
    (panic : Panic) (later : Injection) (kind : GeneratorKind)
    (holds : (actAll? rule (start ()) ks).any (fun r => bereaves panic later kind r.2) = true) :
    ∃ ls c d l, Course rule (start ()) ls c ∧ c.world.Waits 0 ∧ Step c l d ∧ l.Ends c.world 0 (.panicked panic) ∧
      d.turns = [] ∧ d.world.Waits 0 ∧
      (d.world.resume (.building .absent) 0 later none).1 = .refused (.alreadyExecuting kind) := by
  obtain ⟨ls, c, reached, asked⟩ := exists_course (p := fun _ c => bereaves panic later kind c) ks holds
  simp only [bereaves, Option.any_eq_true, Bool.and_eq_true, Bool.not_eq_true', decide_eq_true_eq] at asked
  obtain ⟨⟨⟨idle, going⟩, point⟩, ⟨l, d⟩, played, ⟨⟨ends, turns⟩, ⟨idle', going'⟩, point'⟩, refused⟩ := asked
  exact ⟨ls, c, d, l, reached, ⟨idle, going, point⟩, step_of_play? played, ends, turns, ⟨idle', going', point'⟩,
    refused⟩

end Activation
