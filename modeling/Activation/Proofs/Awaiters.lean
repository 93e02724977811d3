import Activation.Proofs.Changes
import Activation.Proofs.Completion
import Activation.Proofs.Notes

/-! # Awaiter links

Whoever awaits a coroutine is recorded twice: by the coroutine, and by its frame. The two links agree along every
run, although the context and the frame that they lead to may go at different times, and a coroutine that has
finished has neither.

* `Awaiters`: for each context, who was last recorded as its awaiter.
* `World.Coherent`: the links of every context are what was recorded, on both sides.
* `Step.ends`: a step that drives a context to its end completes it while nothing panics.
* `Step.coherent`: every step keeps the links coherent.
* `awaiters_coherent`: the whole of it, for every run.
-/

namespace Activation
set_option autoImplicit false

variable {ε : Type}

/-! ## What changes leave alone -/

structure Generator.KeepsLink (x y : Generator) : Prop where
  kind : y.kind = x.kind
  frame : y.frame = x.frame
  awaiter : y.awaiter = x.awaiter

theorem Generator.KeepsLink.refl (x : Generator) : x.KeepsLink x := ⟨rfl, rfl, rfl⟩

def Frame.KeepsLink (x y : Frame) : Prop := y.awaiter = x.awaiter

theorem Frame.KeepsLink.refl (x : Frame) : x.KeepsLink x := rfl

/-- Contexts and frames keep their links. There are no new contexts, and new frames have no links. -/
structure SameLinks (w v : World ε) : Prop where
  generators : w.generators.Evolves (fun _ => Generator.KeepsLink) (fun _ _ => False) v.generators
  frames : w.frames.Evolves (fun _ => Frame.KeepsLink) (fun _ y => y.awaiter = none) v.frames

namespace SameLinks

variable {w v u : World ε}

theorem ofGenerators {s : Store Generator} (frames : v.frames = w.frames) (generators : v.generators = s)
    (evolves : w.generators.Evolves (fun _ => Generator.KeepsLink) (fun _ _ => False) s) : SameLinks w v := by
  refine ⟨generators ▸ evolves, ?_⟩
  rw [frames]
  exact .refl fun _ => Frame.KeepsLink.refl

theorem ofFrames {s : Store Frame} (frames : v.frames = s) (generators : v.generators = w.generators)
    (evolves : w.frames.Evolves (fun _ => Frame.KeepsLink) (fun _ y => y.awaiter = none) s) : SameLinks w v := by
  refine ⟨?_, frames ▸ evolves⟩
  rw [generators]
  exact .refl fun _ => Generator.KeepsLink.refl

theorem of_eq (frames : v.frames = w.frames) (generators : v.generators = w.generators) : SameLinks w v :=
  .ofGenerators frames generators (.refl fun _ => Generator.KeepsLink.refl)

theorem trans (first : SameLinks w v) (later : SameLinks v u) : SameLinks w u where
  generators := first.generators.trans
    (fun _ _ _ _ first later =>
      ⟨later.kind.trans first.kind, later.frame.trans first.frame, later.awaiter.trans first.awaiter⟩)
    (fun _ _ _ new _ => new) later.generators
  frames := first.frames.trans (fun _ _ _ _ first later => Eq.trans later first)
    (fun _ _ _ new keeps => Eq.trans keeps new) later.frames

theorem retain (o : ObjId) : SameLinks w (w.retain o) := by
  obtain ⟨objects, total, events, eq⟩ := w.retain_eq o
  rw [eq]
  exact of_eq rfl rfl

theorem giveBackObject (o : ObjId) : SameLinks w (w.giveBackObject o).1 := by
  obtain ⟨objects, total, events, deaths, fault, eq⟩ := w.giveBackObject_eq o
  rw [eq]
  exact of_eq rfl rfl

theorem giveBackFrame (f : FrameId) (order : Frame → List Handle) : SameLinks w (w.giveBackFrame f order).1 :=
  .ofFrames rfl rfl (.disown (fun _ => Frame.KeepsLink.refl) f fun x => (rfl : x.KeepsLink _))

theorem giveBack (h : Handle) : SameLinks w (w.giveBack h).1 := by
  cases h with
  | object o => exact giveBackObject o
  | record r => exact of_eq rfl rfl
  | frame f => exact giveBackFrame f _
  | below f => exact giveBackFrame f _
  | generator g =>
    exact .ofGenerators rfl rfl (.disown (fun _ => Generator.KeepsLink.refl) g fun _ => ⟨rfl, rfl, rfl⟩)

end SameLinks

theorem Change.sameLinks {w v : World ε} (change : Change False w v) : SameLinks w v := by
  cases change with
  | other _ frames generators _ => exact .of_eq frames generators
  | retain o => exact .retain o
  | newObject type payload => exact .of_eq rfl rfl
  | giveBack h => exact .giveBack h
  | addFrame unawaited => exact .ofFrames rfl rfl (.insert (fun _ => Frame.KeepsLink.refl) _ unawaited)
  | editFrame i f awaiter =>
    exact .ofFrames rfl rfl (.modify (fun _ => Frame.KeepsLink.refl) i f fun x _ => awaiter x)
  | editGenerator g f kind frame awaiter =>
    exact .ofGenerators rfl rfl
      (.modify (fun _ => Generator.KeepsLink.refl) g f fun x _ => ⟨kind x, frame x, awaiter x⟩)
  | unlink g allowed => exact allowed.elim

theorem Changes.sameLinks {w v : World ε} (changes : Changes False w v) : SameLinks w v := by
  induction changes with
  | refl => exact .of_eq rfl rfl
  | tail _ last ih => exact ih.trans last.sameLinks

/-! ## Coherent links -/

/-- Who was last recorded as the awaiter of each context, and the frame of that awaiter. -/
abbrev Awaiters := GenId → Option (GenId × FrameId)

structure World.Coherent (w : World ε) (notes : Awaiters) : Prop where
  /-- No two contexts share a frame. -/
  apart : ∀ g k x y, w.generators.get? g = some x → w.generators.get? k = some y → x.frame = y.frame → g = k
  given : ∀ g x, w.generators.get? g = some x → x.frame < w.frames.next
  links : ∀ g x f, w.generators.get? g = some x → w.frames.get? x.frame = some f →
    x.awaiter = none ∧ f.awaiter = none ∨
      x.kind = .coroutine ∧ ∃ a i, notes g = some (a, i) ∧ x.awaiter = some a ∧ f.awaiter = some i
  known : ∀ g a i, notes g = some (a, i) → a < w.generators.next ∧
    ∀ y, w.generators.get? a = some y → y.frame = i

namespace World.Coherent

variable {w v : World ε} {notes later : Awaiters}

theorem of_sameLinks (links : SameLinks w v) (coherent : w.Coherent notes) : v.Coherent notes := by
  have old : ∀ {g y}, v.generators.get? g = some y → ∃ x, w.generators.get? g = some x ∧ x.KeepsLink y := by
    intro g y found
    rcases links.generators.origin g y found with was | ⟨-, new⟩
    · exact was
    · exact new.elim
  refine ⟨fun g k x y there found same => ?_, fun g x there => ?_, fun g x f there framed => ?_, fun g a i noted => ?_⟩
  · obtain ⟨x', there', keepsx⟩ := old there
    obtain ⟨y', found', keepsy⟩ := old found
    rw [keepsx.frame, keepsy.frame] at same
    exact coherent.apart g k x' y' there' found' same
  · obtain ⟨x', there', keeps⟩ := old there
    rw [keeps.frame]
    exact (coherent.given g x' there').trans_le links.frames.next_le
  · obtain ⟨x', there', keeps⟩ := old there
    rw [keeps.frame] at framed
    obtain ⟨f', framed', link⟩ := links.frames.old (coherent.given g x' there') framed
    have link : f.awaiter = f'.awaiter := link
    rw [keeps.kind, keeps.awaiter, link]
    exact coherent.links g x' f' there' framed'
  · obtain ⟨below, frame⟩ := coherent.known g a i noted
    refine ⟨below.trans_le links.generators.next_le, fun y found => ?_⟩
    obtain ⟨x, there, keeps⟩ := old found
    rw [keeps.frame]
    exact frame x there

/-- A new context gets a frame of its own. -/
theorem born {x : Frame} {y : Generator} (frames : v.frames = w.frames.insert x)
    (generators : v.generators = w.generators.insert y) (own : y.frame = w.frames.next) (unlinked : x.awaiter = none)
    (unawaited : y.awaiter = none) (coherent : w.Coherent notes) : v.Coherent notes := by
  have cases : ∀ {g z}, v.generators.get? g = some z →
      g = w.generators.next ∧ z = y ∨ w.generators.get? g = some z := by
    intro g z found
    rw [generators, Store.get?_insert] at found
    split at found
    · next new => exact .inl ⟨new, (Option.some.inj found).symm⟩
    · exact .inr found
  have apart : ∀ {g z}, w.generators.get? g = some z → z.frame ≠ y.frame := by
    intro g z found
    rw [own]
    exact Nat.ne_of_lt (coherent.given g z found)
  refine ⟨fun g k z u found second same => ?_, fun g z found => ?_, fun g z f found framed => ?_, fun g a i noted => ?_⟩
  · rcases cases found with ⟨rfl, rfl⟩ | found
    · rcases cases second with ⟨rfl, rfl⟩ | second
      · rfl
      · exact absurd same.symm (apart second)
    · rcases cases second with ⟨rfl, rfl⟩ | second
      · exact absurd same (apart found)
      · exact coherent.apart g k z u found second same
  · rw [frames, Store.next_insert]
    rcases cases found with ⟨rfl, rfl⟩ | found
    · rw [own]
      exact Nat.lt_succ_self _
    · exact (coherent.given g z found).trans (Nat.lt_succ_self _)
  · rw [frames, Store.get?_insert] at framed
    rcases cases found with ⟨rfl, rfl⟩ | found
    · rw [own, if_pos rfl] at framed
      cases framed
      exact .inl ⟨unawaited, unlinked⟩
    · rw [if_neg (Nat.ne_of_lt (coherent.given g z found))] at framed
      exact coherent.links g z f found framed
  · obtain ⟨below, frame⟩ := coherent.known g a i noted
    refine ⟨?_, fun z found => ?_⟩
    · rw [generators, Store.next_insert]
      exact below.trans (Nat.lt_succ_self _)
    · rcases cases found with ⟨rfl, rfl⟩ | found
      · exact absurd below (Nat.lt_irrefl _)
      · exact frame z found

/-- Both links of a context are set at once. -/
theorem linkAwaiter {g : GenId} {x : Generator} {a : Option GenId} (coherent : w.Coherent notes)
    (found : w.generators.get? g = some x) (off : ∀ k, k ≠ g → later k = notes k)
    (known : ∀ b i, later g = some (b, i) → b < w.generators.next ∧
      ∀ y, w.generators.get? b = some y → y.frame = i)
    (own : a = none ∨ x.kind = .coroutine ∧ ∃ b, a = some b ∧ later g = some (b, (w.generator b).frame)) :
    (w.linkAwaiter g a).Coherent later := by
  have read : w.generator g = x := World.generator_of_get? found
  have frames : (w.linkAwaiter g a).frames = w.frames.modify x.frame
      fun f => { f with awaiter := a.map fun b => (w.generator b).frame } := by rw [← read]; rfl
  have generators : (w.linkAwaiter g a).generators = w.generators.modify g fun y => { y with awaiter := a } := rfl
  have cases : ∀ {k z}, (w.linkAwaiter g a).generators.get? k = some z →
      k = g ∧ z = { x with awaiter := a } ∨ k ≠ g ∧ w.generators.get? k = some z := by
    intro k z second
    rw [generators, Store.get?_modify] at second
    split at second
    · next same =>
      subst same
      rw [found] at second
      exact .inl ⟨rfl, (Option.some.inj second).symm⟩
    · next other => exact .inr ⟨Ne.symm other, second⟩
  have old : ∀ {k z}, (w.linkAwaiter g a).generators.get? k = some z →
      ∃ y, w.generators.get? k = some y ∧ z.frame = y.frame := by
    intro k z second
    rcases cases second with ⟨rfl, rfl⟩ | ⟨-, second⟩
    · exact ⟨x, found, rfl⟩
    · exact ⟨z, second, rfl⟩
  refine ⟨fun k l y z first second same => ?_, fun k z second => ?_, fun k z f second framed => ?_,
    fun k b i noted => ?_⟩
  · obtain ⟨y', first', framey⟩ := old first
    obtain ⟨z', second', framez⟩ := old second
    exact coherent.apart k l y' z' first' second' (by rw [← framey, same, framez])
  · obtain ⟨y, first, frame⟩ := old second
    rw [frames, Store.next_modify, frame]
    exact coherent.given k y first
  · rw [frames, Store.get?_modify] at framed
    rcases cases second with ⟨rfl, rfl⟩ | ⟨other, second⟩
    · rw [if_pos rfl] at framed
      obtain ⟨f', -, rfl⟩ := Option.map_eq_some_iff.mp framed
      rcases own with rfl | ⟨kind, b, rfl, noted⟩
      · exact .inl ⟨rfl, rfl⟩
      · exact .inr ⟨kind, b, _, noted, rfl, rfl⟩
    · have apart : x.frame ≠ z.frame := fun same => other (coherent.apart g k x z found second same).symm
      rw [if_neg apart] at framed
      rw [off k other]
      exact coherent.links k z f second framed
  · have before : b < w.generators.next ∧ ∀ y, w.generators.get? b = some y → y.frame = i := by
      by_cases same : k = g
      · subst same
        exact known b i noted
      · rw [off k same] at noted
        exact coherent.known k b i noted
    refine ⟨by rw [generators, Store.next_modify]; exact before.1, fun z second => ?_⟩
    obtain ⟨y, first, frame⟩ := old second
    rw [frame]
    exact before.2 y first

/-- Any other frame may be linked freely. -/
theorem setFrameAwaiter {f : FrameId} (a : Option FrameId) (coherent : w.Coherent notes)
    (spare : ∀ g x, w.generators.get? g = some x → x.frame ≠ f) : (w.setFrameAwaiter f a).Coherent notes := by
  refine ⟨coherent.apart, fun g x found => ?_, fun g x k found framed => ?_, coherent.known⟩
  · rw [World.setFrameAwaiter, World.modifyFrame, Store.next_modify]
    exact coherent.given g x found
  · rw [World.setFrameAwaiter, World.modifyFrame, Store.get?_modify, if_neg (spare g x found).symm] at framed
    exact coherent.links g x k found framed

theorem known_of_forgot {g : GenId} (coherent : w.Coherent notes) (forgot : later g = none ∨ later g = notes g)
    {a : GenId} {i : FrameId} (noted : later g = some (a, i)) :
    a < w.generators.next ∧ ∀ y, w.generators.get? a = some y → y.frame = i := by
  rcases forgot with none | kept
  · rw [none] at noted
    cases noted
  · rw [kept] at noted
    exact coherent.known g a i noted

/-- A context without links needs no record of its awaiter. -/
theorem forget {g : GenId} (coherent : w.Coherent notes) (off : ∀ k, k ≠ g → later k = notes k)
    (forgot : later g = none ∨ later g = notes g)
    (cleared : ∀ x f, w.generators.get? g = some x → w.frames.get? x.frame = some f →
      x.awaiter = none ∧ f.awaiter = none) : w.Coherent later := by
  refine ⟨coherent.apart, coherent.given, fun k x f found framed => ?_, fun k a i noted => ?_⟩
  · by_cases same : k = g
    · subst same
      exact .inl (cleared x f found framed)
    · rw [off k same]
      exact coherent.links k x f found framed
  · by_cases same : k = g
    · subst same
      exact coherent.known_of_forgot forgot noted
    · rw [off k same] at noted
      exact coherent.known k a i noted

/-- A context that is completed while nothing panics has no links afterwards. -/
theorem complete {g : GenId} {out : Multiset Handle} (final : RecordState) (coherent : w.Coherent notes)
    (acc : Accounted w out) (owned : .generator g ∈ out) (calm : w.fault = none)
    (off : ∀ k, k ≠ g → later k = notes k) (forgot : later g = none ∨ later g = notes g) :
    (w.complete g final).Coherent later := by
  have vacated : SameLinks w (w.vacate g final) := (Changes.vacate g final).sameLinks
  have moved : Moves .calm w out (w.vacate g final) out := .vacate g final trivial fun _ _ => trivial
  have still : (w.vacate g final).isUnwinding = false :=
    World.isUnwinding_of_none ((moved.fault_eq acc id).trans calm)
  obtain ⟨y, there⟩ := Option.isSome_iff_exists.mp ((moved.accounted acc).1.has owned)
  have before := coherent.of_sameLinks vacated
  have kind : (w.generator g).kind = y.kind := by
    rcases vacated.generators.origin g y there with ⟨x, found, keeps⟩ | ⟨-, new⟩
    · rw [World.generator_of_get? found, keeps.kind]
    · exact new.elim
  have ended : ∀ v : World ε, v.Coherent later → ∀ e, (v.emit e).Coherent later :=
    fun v coherent e => of_sameLinks (w := v) (.of_eq rfl rfl) coherent
  simp only [World.complete, still, Bool.false_eq_true, if_false]
  split
  · exact ended _ (before.linkAwaiter there off (fun b i => before.known_of_forgot forgot) (.inl rfl)) _
  · next other =>
    refine ended _ (before.forget off forgot fun x f here framed => ?_) _
    rcases before.links g x f here framed with cleared | ⟨coroutine, -⟩
    · exact cleared
    · rw [there] at here
      cases here
      exact absurd (kind.trans coroutine) other

end World.Coherent

/-! ## Steps that complete a context -/

/-- On the way the context is completed, while somebody holds it and nothing panics. -/
def Ends (w : World ε) (g : GenId) (v : World ε) : Prop :=
  ∃ (u : World ε) (out : Multiset Handle) (final : RecordState), Changes False w u ∧ Accounted u out ∧
    .generator g ∈ out ∧ u.fault = none ∧ Changes False (u.complete g final) v

namespace Ends

variable {w v u : World ε} {g : GenId} {out : Multiset Handle}

theorem complete (final : RecordState) (acc : Accounted w out) (owned : .generator g ∈ out) (calm : w.fault = none) :
    Ends w g (w.complete g final) := ⟨w, out, final, .refl, acc, owned, calm, .refl⟩

theorem head (changes : Changes False w v) (ends : Ends v g u) : Ends w g u := by
  obtain ⟨v', out, final, before, acc, owned, calm, after⟩ := ends
  exact ⟨v', out, final, changes.trans before, acc, owned, calm, after⟩

theorem tail (ends : Ends w g v) (changes : Changes False v u) : Ends w g u := by
  obtain ⟨v', out, final, before, acc, owned, calm, after⟩ := ends
  exact ⟨v', out, final, before, acc, owned, calm, after.trans changes⟩

theorem abandon {p : Panic} (acc : Accounted w out) (owned : .generator g ∈ out)
    (fault : w.fault = some (.unwinding p)) : Ends w g (w.abandon g) := by
  unfold World.abandon
  generalize told : w.emit _ = v
  have reported : Changes False w v := told ▸ .emit _
  have acc' : Accounted { v with fault := none } out := told ▸ (acc.emit _).setFault none
  have fault' : v.fault = some (.unwinding p) := by
    rw [← told]
    exact fault
  rw [World.cleanUp_of_unwinding fault' (acc'.fault_complete g .raised)]
  exact ((Ends.complete .raised acc' owned rfl).head (reported.trans (Changes.setFault none))).tail
    (Changes.setFault _)

theorem startTurn {body : BodyId} {inj : Injection} {result : Resumption} (acc : Accounted w (↑inj.held + out))
    (owned : .generator g ∈ out) (calm : w.fault = none)
    (answered : w.startTurn g body inj = .answered result v) : Ends w g v := by
  simp only [World.startTurn] at answered
  split at answered
  · next p _ =>
    cases answered
    have panicking : Accounted (w.panic p) (↑inj.held + out) := by
      rw [World.panic_of_none calm]
      exact acc.setFault _
    have ends : Ends (w.panic p) g ((w.panic p).abandon g) :=
      .abandon panicking (Multiset.mem_add.mpr (.inr owned)) (by rw [World.panic_of_none calm])
    exact (ends.head (Changes.panic p)).tail (Changes.drop _ _)
  · cases answered

/-- A request without a turn completes its context, or does not panic and leaves all links alone. -/
theorem answered {inj : Injection} {external : Option RecordId} {result : Resumption}
    (acc : Accounted w (↑(inj.offered external) + out)) (owned : .generator g ∈ out) (calm : w.fault = none)
    (answered : w.receive g inj external = .answered result v) :
    Ends w g v ∨ Changes False w v ∧ (World.settlePanic result v).1.isPanic = false := by
  have received := acc.received owned calm
  rw [answered] at received
  generalize admission : Admission.answered result v = a at received
  cases received with
  | @refused e judged hs all =>
    cases admission
    rw [← all] at acc
    rw [World.settlePanic_of_none (acc.fault_drop.trans calm)]
    exact .inr ⟨.drop w hs, rfl⟩
  | ignored judged =>
    cases admission
    rw [World.settlePanic_of_none (acc.fault_drop.trans calm)]
    exact .inr ⟨.drop w _, rfl⟩
  | finished judged =>
    cases admission
    exact .inl ((Ends.complete .cleared acc (Multiset.mem_add.mpr (.inr owned)) calm).tail (Changes.drop _ _))
  | @entered body judged =>
    have prepared : Moves (.request g) w _ _ _ := .prepare inj (.request w g external) acc owned
    have acc' := (prepared.accounted acc).1
    have calm' := (prepared.fault_eq acc id).trans calm
    have changes : Changes False w ((w.takeBody g external).begin g inj.isThrowing) :=
      (Changes.takeBody g external).trans (Changes.begin g _)
    exact .inl ((startTurn acc' owned calm' admission.symm).head changes)

/-- The end of a turn completes its context, unless the body has yielded. -/
theorem finish {t : Turn} {ending : Ending} (acc : Accounted w (.frame t.frame ::ₘ (↑ending.held + out)))
    (owned : .generator t.context ∈ out) (calm : w.fault = none) (balanced : w.stack.current = some t.frame) :
    ending.isYield = false ∧ Ends w t.context (w.finish t ending).2 ∨
      ending.isYield = true ∧ Changes False w (w.finish t ending).2 := by
  cases sane : ending.isPanic with
  | true =>
    cases ending with
    | panics p =>
      obtain ⟨acc', fault⟩ := acc.leave_panicking calm balanced p
      have ends : Ends ((w.panic p).leave t.frame) t.context
          (((w.panic p).leave t.frame).abandon t.context) :=
        .abandon acc' (Multiset.mem_add.mpr (.inr owned)) fault
      exact .inl ⟨rfl, (ends.head ((Changes.panic p).trans (Changes.leave _))).tail (Changes.settlePanic _)⟩
    | _ => cases sane
  | false =>
    have left : Changes False w (w.restored t) :=
      (Changes.leave t.frame).trans (Changes.editGenerator _ _ (fun _ => rfl) (fun _ => rfl) fun _ => rfl)
    have acc' := acc.restored balanced
    have owned' : .generator t.context ∈ (↑ending.held + out : Multiset Handle) :=
      Multiset.mem_add.mpr (.inr owned)
    have calm' : (w.restored t).fault = none := (acc.fault_leave balanced).trans calm
    obtain ⟨hs, given⟩ := (w.restored t).settle_snd t.context t.closing sane
    rw [World.finish_of_calm acc calm balanced sane, given]
    have last : Changes False ((w.restored t).stopped t.context ending)
        (World.settlePanic ((w.restored t).settle t.context t.closing ending).1
          (((w.restored t).stopped t.context ending).drop hs)).2 :=
      (Changes.drop _ hs).trans (Changes.settlePanic _)
    cases ending with
    | yields o => exact .inr ⟨rfl, (left.trans (Changes.suspend _)).trans last⟩
    | returns o => exact .inl ⟨rfl, ((Ends.complete .returned acc' owned' calm').head left).tail last⟩
    | raises e => exact .inl ⟨rfl, ((Ends.complete .raised acc' owned' calm').head left).tail last⟩
    | panics p => cases sane

end Ends

/-! ## Steps -/

/-- What a step writes down: a coroutine gets an awaiter or loses it, and a context that is driven to its end has
none. -/
def Label.awaiters (w : World ε) (l : Label) (notes : Awaiters) : Awaiters := fun g =>
  if l.Completes w g then none
  else
    match l with
    | .op (.setAwaiter k a) =>
      if k = g ∧ (w.generator g).kind = .coroutine then a.map fun a => (a, (w.generator a).frame) else notes g
    | _ => notes g

/-- Nobody links the frame of a context but the context. -/
def Label.SparesContexts (c : Config ε) (l : Label) (_ : Config ε) : Prop :=
  match l with
  | .op (.setFrameAwaiter f _) =>
    ∀ g < c.world.generators.next, c.world.Has (.generator g) → (c.world.generator g).frame ≠ f
  | _ => True

instance Label.decidableSparesContexts (c : Config ε) (l : Label) (d : Config ε) :
    Decidable (l.SparesContexts c d) := by
  unfold Label.SparesContexts
  split <;> infer_instance

theorem Label.Completes.unique {w : World ε} {l : Label} {g k : GenId} (first : l.Completes w g)
    (second : l.Completes w k) : k = g := by
  cases l with
  | ended t ending result => exact second.1.symm.trans first.1
  | answered i inj external result => exact second.1.symm.trans first.1
  | _ => exact first.elim

theorem World.verdict_of_unstarted {w : World ε} {g : GenId} {inj : Injection} (closing : inj.isClosing = true)
    (fresh : w.isJustStarted g = true) (idle : w.isExecuting g = false) (going : w.isCompleted g = false) :
    w.verdict g inj = .finish := by
  cases inj with
  | close => simp [World.verdict, World.sendsValue, Injection.isClosing, fresh, idle, going]
  | _ => cases closing

namespace Step

variable {c d : Config ε} {l : Label} {notes : Awaiters}

/-- A step that drives a context to its end completes it while nothing panics. -/
theorem ends {g : GenId} (sound : c.Sound) (step : Step c l d) (completes : l.Completes c.world g) :
    Ends c.world g d.world := by
  have acc := sound.accounted
  cases step with
  | @answered k inj external result w rest takes received =>
    obtain ⟨rfl, why⟩ := completes
    rw [c.outside_of_request takes] at acc
    have owned : .generator k ∈ (.generator k ::ₘ (rest + c.reserved)) := Multiset.mem_cons_self _ _
    refine Ends.tail ?_ (Changes.settlePanic result)
    rcases why with ⟨closing, fresh, idle, going⟩ | panicked
    · simp only [World.receive, World.verdict_of_unstarted closing fresh idle going] at received
      cases received
      exact (Ends.complete .cleared acc (Multiset.mem_add.mpr (.inr owned)) sound.calm).tail (Changes.drop _ _)
    · rcases Ends.answered acc owned sound.calm received with ends | ⟨-, quiet⟩
      · exact ends
      · rw [quiet] at panicked
        cases panicked
  | @ended t turns ending rest innermost balanced takes =>
    obtain ⟨rfl, stops⟩ := completes
    rw [c.outside_of_turn innermost takes] at acc
    rcases Ends.finish acc (Multiset.mem_cons_self _ _) sound.calm balanced with ⟨-, ends⟩ | ⟨yields, -⟩
    · exact ends
    · rw [yields] at stops
      cases stops
  | _ => exact completes.elim

/-- Apart from that, links are changed only by the calls that are for it. -/
theorem ends_or_changes (sound : c.Sound) (step : Step c l d) (plain : l.Plain) :
    (∃ g, Ends c.world g d.world) ∨ Changes False c.world d.world := by
  have acc := sound.accounted
  cases step with
  | op op _ _ _ => exact .inr (op.changes plain c.world)
  | quiet _ => exact plain.elim
  | @answered g inj external result w rest takes received =>
    rw [c.outside_of_request takes] at acc
    rcases Ends.answered acc (Multiset.mem_cons_self _ _) sound.calm received with ends | ⟨changes, -⟩
    · exact .inl ⟨g, ends.tail (Changes.settlePanic result)⟩
    · exact .inr (changes.trans (Changes.settlePanic result))
  | @entered g inj external t w rest takes received =>
    rw [c.outside_of_request takes] at acc
    obtain ⟨body, -, -, pushed⟩ := World.receive_entered acc (Multiset.mem_cons_self _ _) sound.calm received
    exact .inr (((Changes.takeBody g external).trans (Changes.begin g _)).trans (Changes.enter pushed))
  | @ended t turns ending rest innermost balanced takes =>
    rw [c.outside_of_turn innermost takes] at acc
    rcases Ends.finish acc (Multiset.mem_cons_self _ _) sound.calm balanced with ⟨-, ends⟩ | ⟨-, changes⟩
    · exact .inl ⟨t.context, ends⟩
    · exact .inr changes
  | @strayed t turns ending rest innermost unbalanced sane takes =>
    rw [c.outside_of_turn innermost takes] at acc
    have concluded := c.world.conclude_of_calm t sane
    rw [World.isUnwinding_of_unwinding (acc.fault_leave_strayed sound.calm unbalanced), if_pos rfl] at concluded
    refine .inr ?_
    simp only [World.finish, concluded]
    exact (Changes.leave t.frame).trans (Changes.settlePanic _)

/-- Only a call that sets an awaiter is written down. -/
theorem awaiters_op {call : Op} (other : ∀ g a, call ≠ .setAwaiter g a) (w : World ε) (notes : Awaiters) :
    (Label.op call).awaiters w notes = notes := by
  funext k
  cases call with
  | setAwaiter g a => exact absurd rfl (other g a)
  | _ => exact if_neg id

theorem coherent_setAwaiter {w : World ε} {g : GenId} {a : Option GenId} (coherent : w.Coherent notes)
    (has : w.Has (.generator g)) (awaiting : ∀ b, a = some b → w.Has (.generator b)) :
    (w.setAwaiter g a).2.Coherent ((Label.op (.setAwaiter g a)).awaiters w notes) := by
  obtain ⟨x, found⟩ := Option.isSome_iff_exists.mp has
  have written : ∀ k, (Label.op (.setAwaiter g a)).awaiters w notes k =
      if g = k ∧ (w.generator k).kind = .coroutine then a.map fun a => (a, (w.generator a).frame) else notes k :=
    fun k => if_neg id
  unfold World.setAwaiter
  split
  · next coroutine =>
    have own : (Label.op (.setAwaiter g a)).awaiters w notes g = a.map fun a => (a, (w.generator a).frame) := by
      rw [written, if_pos ⟨rfl, coroutine⟩]
    refine coherent.linkAwaiter found (fun k other => ?_) (fun b i noted => ?_) ?_
    · rw [written, if_neg fun both => other both.1.symm]
    · rw [own] at noted
      obtain ⟨b', rfl, eq⟩ := Option.map_eq_some_iff.mp noted
      cases eq
      obtain ⟨y, there⟩ := Option.isSome_iff_exists.mp (awaiting b rfl)
      refine ⟨w.generators.lt_next there, fun z here => ?_⟩
      rw [World.generator_of_get? here]
    · cases a with
      | none => exact .inl rfl
      | some b =>
        rw [World.generator_of_get? found] at coroutine
        exact .inr ⟨coroutine, b, rfl, own⟩
  · next other =>
    have same : (Label.op (.setAwaiter g a)).awaiters w notes = notes := by
      funext k
      rw [written, if_neg]
      rintro ⟨rfl, coroutine⟩
      exact other coroutine
    rw [same]
    exact coherent

theorem coherent_op {call : Op} (step : Step c (.op call) d)
    (kept : (Label.op call).SparesContexts c d) (coherent : c.world.Coherent notes) :
    d.world.Coherent ((Label.op call).awaiters c.world notes) := by
  cases step with
  | op _ named _ _ =>
    by_cases sets : ∃ g a, call = .setAwaiter g a
    · obtain ⟨g, a, rfl⟩ := sets
      refine coherent_setAwaiter coherent (named _ (by simp [Op.names])) fun b awaits => named _ ?_
      simp [Op.names, awaits]
    rw [awaiters_op (fun g a same => sets ⟨g, a, same⟩)]
    by_cases plain : call.Plain
    · exact .of_sameLinks (call.changes plain c.world).sameLinks coherent
    cases call with
    | newImmortal type payload => exact .of_sameLinks (w := c.world) (.of_eq rfl rfl) coherent
    | markImmortal o => exact .of_sameLinks (w := c.world) (.of_eq rfl rfl) coherent
    | setCount o count => exact .of_sameLinks (w := c.world) (.of_eq rfl rfl) coherent
    | newCompiled kind code builder body => exact .born rfl rfl rfl rfl rfl coherent
    | newInterpreted kind r body =>
      have held : (c.world.holdRecord r).Coherent notes := .of_sameLinks (w := c.world) (.of_eq rfl rfl) coherent
      exact .born rfl rfl rfl rfl rfl held
    | setFrameAwaiter f a =>
      refine coherent.setFrameAwaiter a fun g x found => ?_
      have spare := kept g (c.world.generators.lt_next found) (Option.isSome_iff_exists.mpr ⟨x, found⟩)
      rwa [World.generator_of_get? found] at spare
    | setAwaiter g a => exact absurd ⟨g, a, rfl⟩ sets
    | _ => exact absurd trivial plain

theorem coherent (sound : c.Sound) (step : Step c l d) (kept : l.SparesContexts c d)
    (coherent : c.world.Coherent notes) : d.world.Coherent (l.awaiters c.world notes) := by
  have ended : ∀ {g later}, Ends c.world g d.world → (∀ k, k ≠ g → later k = notes k) →
      later g = none ∨ later g = notes g → d.world.Coherent later := by
    rintro g later ⟨u, out, final, before, acc, owned, calm, after⟩ off forgot
    exact .of_sameLinks after.sameLinks
      ((coherent.of_sameLinks before.sameLinks).complete final acc owned calm off forgot)
  have request : l.Plain → (∀ k, l.awaiters c.world notes k = if l.Completes c.world k then none else notes k) →
      d.world.Coherent (l.awaiters c.world notes) := by
    intro plain written
    by_cases completes : ∃ g, l.Completes c.world g
    · obtain ⟨g, completes⟩ := completes
      refine ended (step.ends sound completes) (fun k other => ?_) (.inl ?_)
      · rw [written, if_neg fun completed => other (completes.unique completed)]
      · rw [written, if_pos completes]
    · have same : l.awaiters c.world notes = notes :=
        funext fun k => (written k).trans (if_neg fun completed => completes ⟨k, completed⟩)
      rw [same]
      rcases step.ends_or_changes sound plain with ⟨g, ends⟩ | changes
      · exact ended ends (fun _ _ => rfl) (.inr rfl)
      · exact .of_sameLinks changes.sameLinks coherent
  cases l with
  | op call => exact step.coherent_op kept coherent
  | quiet =>
    cases step with
    | quiet same =>
      have unwritten : Label.quiet.awaiters c.world notes = notes := funext fun _ => if_neg id
      rw [unwritten]
      exact .of_sameLinks (.of_eq same.frames same.generators) coherent
  | _ => exact request trivial fun _ => rfl

end Step

/-! ## Runs -/

theorem Noted.coherent {c d : Config ε} {ls : List Label} {blank notes : Awaiters} (sound : c.Sound)
    (coherent : c.world.Coherent blank) (run : Noted Label.SparesContexts Label.awaiters c blank ls d notes) :
    d.world.Coherent notes := by
  induction run with
  | nil => exact coherent
  | snoc init step kept ih => exact step.coherent (init.run.sound sound) kept ih

theorem Config.start_coherent (host : ε) : (Config.start host).world.Coherent fun _ => none where
  apart g k x y found _ _ := by simp [Config.start] at found
  given g x found := by simp [Config.start] at found
  links g x f found _ := by simp [Config.start] at found
  known g a i noted := by cases noted

/-- The step records an awaiter of the context. -/
def Label.Awaits (g : GenId) : Label → Prop
  | .op (.setAwaiter k a) => k = g ∧ a.isSome = true
  | _ => False

theorem Label.awaiters_eq_none {w : World ε} {l : Label} {g : GenId} {notes : Awaiters} (other : ¬ l.Awaits g)
    (free : notes g = none) : l.awaiters w notes g = none := by
  unfold Label.awaiters
  split
  · rfl
  · split
    · next k a _ =>
      split
      · next own =>
        cases a with
        | none => rfl
        | some b => exact absurd ⟨own.1, rfl⟩ other
      · exact free
    · exact free

theorem Noted.eq_none {c d : Config ε} {ls : List Label} {blank notes : Awaiters} {g : GenId}
    (run : Noted Label.SparesContexts Label.awaiters c blank ls d notes) (free : blank g = none)
    (others : ∀ l ∈ ls, ¬ l.Awaits g) : notes g = none := by
  induction run with
  | nil => exact free
  | snoc _ _ _ ih =>
    refine Label.awaiters_eq_none (others _ (by simp)) (ih fun l earlier => others l ?_)
    exact List.mem_append.mpr (.inl earlier)

theorem World.contextAwaiter_eq_none {w : World ε} {g : GenId} (clear : (w.generator g).awaiter = none) :
    w.contextAwaiter g = none := by simp [World.contextAwaiter, clear]

theorem World.awaiter_eq_none {w : World ε} {f : FrameId} (clear : (w.frame f).awaiter = none) :
    w.awaiter f = none := by simp [World.awaiter, clear]

namespace World.Coherent

variable {w : World ε} {notes : Awaiters} {out : Multiset Handle} {g : GenId}

/-- The two links of a context that is there, as they are stored. -/
theorem stored (coherent : w.Coherent notes) (acc : Accounted w out) (has : w.Has (.generator g)) :
    (w.generator g).awaiter = none ∧ (w.frame (w.generator g).frame).awaiter = none ∨
      (w.generator g).kind = .coroutine ∧ ∃ a i, notes g = some (a, i) ∧ (w.generator g).awaiter = some a ∧
        (w.frame (w.generator g).frame).awaiter = some i := by
  obtain ⟨x, found⟩ := Option.isSome_iff_exists.mp has
  obtain ⟨f, framed⟩ := Option.isSome_iff_exists.mp (acc.has_frame has)
  rw [World.generator_of_get? found] at framed ⊢
  rw [World.frame_of_get? framed]
  exact coherent.links g x f found framed

theorem unlinked (coherent : w.Coherent notes) (acc : Accounted w out) (has : w.Has (.generator g))
    (free : (w.generator g).kind ≠ .coroutine ∨ notes g = none) :
    w.contextAwaiter g = none ∧ w.awaiter (w.generator g).frame = none := by
  rcases coherent.stored acc has with ⟨context, frame⟩ | ⟨coroutine, a, i, noted, -⟩
  · exact ⟨contextAwaiter_eq_none context, awaiter_eq_none frame⟩
  · rcases free with other | none
    · exact absurd coroutine other
    · rw [none] at noted
      cases noted

theorem awaiter_of_contextAwaiter (coherent : w.Coherent notes) (acc : Accounted w out)
    (has : w.Has (.generator g)) {a : GenId} (awaited : w.contextAwaiter g = some a) :
    w.awaiter (w.generator g).frame = some (w.generator a).frame := by
  obtain ⟨link, there⟩ := Option.filter_eq_some_iff.mp awaited
  rcases coherent.stored acc has with ⟨none, -⟩ | ⟨-, b, i, noted, context, frame⟩
  · rw [none] at link
    cases link
  · rw [link] at context
    cases context
    obtain ⟨y, found⟩ := Option.isSome_iff_exists.mp there
    have own : (w.generator a).frame = i := by
      rw [World.generator_of_get? found]
      exact (coherent.known g a i noted).2 y found
    have framed : w.Has (.frame (w.generator a).frame) := acc.has_frame there
    rw [own] at framed ⊢
    exact Option.filter_eq_some_iff.mpr ⟨frame, framed⟩

theorem recorded_of_awaiter (coherent : w.Coherent notes) (acc : Accounted w out) (has : w.Has (.generator g))
    {f : FrameId} (awaited : w.awaiter (w.generator g).frame = some f) :
    ∃ a, notes g = some (a, f) ∧ (w.contextAwaiter g = some a ∨
      w.contextAwaiter g = none ∧ ¬ w.Has (.generator a) ∧ w.Has (.frame f)) := by
  obtain ⟨link, there⟩ := Option.filter_eq_some_iff.mp awaited
  rcases coherent.stored acc has with ⟨-, none⟩ | ⟨-, a, i, noted, context, frame⟩
  · rw [none] at link
    cases link
  · rw [link] at frame
    cases frame
    refine ⟨a, noted, ?_⟩
    by_cases alive : w.Has (.generator a)
    · exact .inl (Option.filter_eq_some_iff.mpr ⟨context, alive⟩)
    · have gone : w.generators.contains a = false := by simpa [World.Has, Store.contains] using alive
      exact .inr ⟨by simp [World.contextAwaiter, context, Option.filter, gone], alive, there⟩

end World.Coherent

theorem World.linkAwaiter_none (w : World ε) (g : GenId) :
    ((w.linkAwaiter g none).generator g).awaiter = none ∧
      ((w.linkAwaiter g none).frame ((w.linkAwaiter g none).generator g).frame).awaiter = none := by
  have same : ((w.linkAwaiter g none).generator g).frame = (w.generator g).frame :=
    World.generator_modifyGenerator Generator.frame _ g g _ fun _ => rfl
  rw [same]
  simp only [World.linkAwaiter, World.generator, World.frame, World.setFrameAwaiter, World.modifyGenerator,
    World.modifyFrame, Store.get?_modify, if_true]
  constructor
  · cases w.generators.get? g <;> rfl
  · cases w.frames.get? ((w.generators.get? g).getD .absent).frame <;> rfl

/-- Completing a coroutine clears both links, unless clearing its record panics: then both stay. -/
theorem World.complete_links (w : World ε) {g : GenId} (final : RecordState)
    (coroutine : (w.generator g).kind = .coroutine) :
    if (w.complete g final).isUnwinding then SameLinks w (w.complete g final)
    else (w.complete g final).contextAwaiter g = none ∧
      (w.complete g final).awaiter ((w.complete g final).generator g).frame = none := by
  have vacated : SameLinks w (w.vacate g final) := (Changes.vacate g final).sameLinks
  cases unwinding : (w.vacate g final).isUnwinding with
  | true =>
    have same : w.complete g final = w.vacate g final := by simp only [World.complete, unwinding, if_true]
    rw [same, unwinding, if_pos rfl]
    exact vacated
  | false =>
    obtain ⟨e, same⟩ : ∃ e, w.complete g final = ((w.vacate g final).linkAwaiter g none).emit e := by
      simp only [World.complete, unwinding, coroutine, if_true, Bool.false_eq_true, if_false]
      exact ⟨_, rfl⟩
    have calm : (((w.vacate g final).linkAwaiter g none).emit e).isUnwinding = false := unwinding
    obtain ⟨context, frame⟩ := (w.vacate g final).linkAwaiter_none g
    rw [same, calm, if_neg Bool.false_ne_true]
    exact ⟨contextAwaiter_eq_none context, awaiter_eq_none frame⟩

/-- The two awaiter links of every context agree, along every run in which nobody else links its frame.

A context that is no coroutine has neither link and refuses an awaiter. If a coroutine knows its awaiter, its frame
knows the frame of that awaiter. If its frame knows a frame, that is the frame of the context recorded last, and the
coroutine knows the context unless it is gone. After a step that drives the context to its end there are no links,
until an awaiter is recorded again.

The completion itself clears both links, in any world and whatever the counts in it, unless the counts are so wrong
that clearing the record panics. Then the context is finished, and both links are left as they were. -/
theorem awaiters_coherent (host : ε) {ls : List Label} {c : Config ε} {notes : Awaiters}
    (run : Noted Label.SparesContexts Label.awaiters (Config.start host) (fun _ => none) ls c notes) :
    (∀ g, c.world.Has (.generator g) → (c.world.generator g).kind ≠ .coroutine →
      c.world.contextAwaiter g = none ∧ c.world.awaiter (c.world.generator g).frame = none ∧
      ∀ a, c.world.setAwaiter g a = (.error (.notACoroutine (c.world.generator g).kind), c.world)) ∧
    (∀ g, c.world.Has (.generator g) →
      (∀ a, c.world.contextAwaiter g = some a →
        c.world.awaiter (c.world.generator g).frame = some (c.world.generator a).frame) ∧
      ∀ f, c.world.awaiter (c.world.generator g).frame = some f → ∃ a, notes g = some (a, f) ∧
        (c.world.contextAwaiter g = some a ∨
          c.world.contextAwaiter g = none ∧ ¬ c.world.Has (.generator a) ∧ c.world.Has (.frame f))) ∧
    (∀ (l : Label) (d e : Config ε) (after : List Label) (later : Awaiters) (g : GenId),
      Step c l d → l.Completes c.world g →
      Noted Label.SparesContexts Label.awaiters d (l.awaiters c.world notes) after e later →
      (∀ m ∈ after, ¬ m.Awaits g) → e.world.Has (.generator g) →
      e.world.contextAwaiter g = none ∧ e.world.awaiter (e.world.generator g).frame = none) ∧
    ∀ (w : World ε) (g : GenId) (final : RecordState), (w.generator g).kind = .coroutine →
      if (w.complete g final).isUnwinding then SameLinks w (w.complete g final)
      else (w.complete g final).contextAwaiter g = none ∧
        (w.complete g final).awaiter ((w.complete g final).generator g).frame = none := by
  have sound := run.run.sound (Config.start_sound host)
  have coherent := run.coherent (Config.start_sound host) (Config.start_coherent host)
  refine ⟨fun g has other => ?_, fun g has => ⟨fun a => ?_, fun f => ?_⟩, ?_, fun w g => w.complete_links⟩
  · obtain ⟨context, frame⟩ := coherent.unlinked sound.accounted has (.inl other)
    exact ⟨context, frame, fun a => if_neg other⟩
  · exact coherent.awaiter_of_contextAwaiter sound.accounted has
  · exact coherent.recorded_of_awaiter sound.accounted has
  · intro l d e after later g step completes onward others has
    have kept : l.SparesContexts c d := by
      cases l with
      | op call => exact completes.elim
      | _ => trivial
    have sound' := step.sound sound
    have ended : l.awaiters c.world notes g = none := if_pos completes
    exact (onward.coherent sound' (step.coherent sound kept coherent)).unlinked (onward.run.sound sound').accounted
      has (.inr (onward.eq_none ended others))

/-- The awaiter of a coroutine is dropped while somebody keeps its frame, which is put on another frame meanwhile;
then the coroutine is closed before its first step. -/
theorem awaiters_coherent_dropped :
    ∃ (ls : List Label) (c d : Config Unit) (notes : Awaiters) (l : Label),
      Noted Label.SparesContexts Label.awaiters (Config.start ()) (fun _ => none) ls c notes ∧
      c.world.Has (.generator 0) ∧ c.world.awaiter (c.world.generator 0).frame = some 1 ∧ notes 0 = some (1, 1) ∧
      c.world.contextAwaiter 0 = none ∧ ¬ c.world.Has (.generator 1) ∧
      Step c l d ∧ l.Completes c.world 0 ∧ d.world.Has (.generator 0) ∧
      d.world.contextAwaiter 0 = none ∧ d.world.awaiter (d.world.generator 0).frame = none := by
  let code : Code := { module := "m", name := "f" }
  let dropped (c : Config Unit) (notes : Awaiters) : Bool :=
    decide (c.world.Has (.generator 0)) && decide (¬ c.world.Has (.generator 1)) &&
      decide (c.world.awaiter (c.world.generator 0).frame = some 1) && decide (notes 0 = some (1, 1)) &&
      (c.play? (.ask 0 .close none)).any fun s =>
        decide (s.1.Completes c.world 0) && decide (s.2.world.Has (.generator 0))
  obtain ⟨ls, c, notes, run, holds⟩ := Config.exists_noted (p := dropped)
    [.call (.newCompiled .coroutine code none 0), .call (.newCompiled .coroutine code none 0),
      .call (.newFrame code none), .call (.setAwaiter 0 (some 1)), .call (.clone (.frame 1)),
      .call (.setFrameAwaiter 2 (some 1)), .call (.drop (.generator 1))]
    (by decide +kernel : (Config.noteAll? Label.SparesContexts Label.awaiters (Config.start ()) (fun _ => none)
      _).any _ = true)
  unfold dropped at holds
  simp only [Option.any_eq_true, Bool.and_eq_true, decide_eq_true_eq] at holds
  obtain ⟨⟨⟨⟨has, gone⟩, awaited⟩, noted⟩, ⟨l, d⟩, closed, completes, still⟩ := holds
  have step := Config.step_of_play? closed
  obtain ⟨-, links, ended, -⟩ := awaiters_coherent () run
  have unknown : c.world.contextAwaiter 0 = none := by
    obtain ⟨a, noted', knows | ⟨unknown, -⟩⟩ := (links 0 has).2 1 awaited
    · rw [noted] at noted'
      cases noted'
      exact absurd (Option.filter_eq_some_iff.mp knows).2 gone
    · exact unknown
  obtain ⟨context, frame⟩ := ended l d d [] _ 0 step completes .nil
    (fun m member => absurd member List.not_mem_nil) still
  exact ⟨ls, c, d, notes, l, run, has, awaited, noted, unknown, gone, step, completes, still, context, frame⟩

/-- A count that was overwritten with the smallest value has no smaller one. The record that holds the object cannot
be cleared, and the coroutine is completed with both links in place. -/
theorem awaiters_outlast_overflow :
    ∃ (ls : List Label) (c : Config Unit) (lowest : Count) (w : World Unit), Run (Config.start ()) ls c ∧
      lowest.val = -0x8000000000000000 ∧
      (c.world.setCount 1 lowest).resume (.building .absent) 0 (.send nothing) none =
        (.panicked .countOverflow, w) ∧
      w.isCompleted 0 = true ∧ (w.generator 0).kind = .coroutine ∧ w.contextAwaiter 0 = some 1 ∧
      w.awaiter (w.generator 0).frame = some (w.generator 1).frame := by
  let code : Code := { module := "m", name := "f" }
  let lowest : Count := ⟨-0x8000000000000000, by decide, by decide⟩
  let survives (_ : List Label) (c : Config Unit) : Bool :=
    let r := (c.world.setCount 1 lowest).resume (.building .absent) 0 (.send nothing) none
    decide (r.1 = .panicked .countOverflow) && r.2.isCompleted 0 && decide ((r.2.generator 0).kind = .coroutine) &&
      decide (r.2.contextAwaiter 0 = some 1) &&
      decide (r.2.awaiter (r.2.generator 0).frame = some (r.2.generator 1).frame)
  obtain ⟨ls, c, run, holds⟩ := Config.exists_run (p := survives)
    [.call (.newObject .int (.int 1)), .call (.newRecord { code := code }), .call (.setSlot 0 0 1),
      .call (.newInterpreted .coroutine 0 0), .call (.newCompiled .coroutine code none 0),
      .call (.setAwaiter 0 (some 1))]
    (by decide +kernel : ((Config.start ()).playAll? _).any _ = true)
  simp only [survives, Bool.and_eq_true, decide_eq_true_eq] at holds
  obtain ⟨⟨⟨⟨panicked, completed⟩, kind⟩, context⟩, frame⟩ := holds
  exact ⟨ls, c, lowest, _, run, rfl, Prod.ext panicked rfl, completed, kind, context, frame⟩

end Activation
