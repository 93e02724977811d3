import Activation.Proofs.Stack.Chain
import Activation.Proofs.Walk.Materialization
import Activation.Script.Run

/-! # The records of a whole chain

A request for all records goes outwards along the chain. It fills in what is missing, frame by frame, and gives up at
the first frame that can have no record.

* `World.Spares fs w v`: between `w` and `v` the stack, the frames `fs` and the positions of records stay as they are.
* `Host.Builds good fs b code ip`: in good states of the host, the builder makes a record and does no more than that.
* `World.Furnished fs w v`: `v` is `w` with new records for some of the frames `fs`, each at its frame's position.
* `World.Filled fs inner w v rs`: the frames `inner` then have the records `rs`, and all others are as they were.
* `World.exists_filled`: so it is after every part of the chain that can have records.
* `materializeAll_decides`: what the request answers, and what it leaves behind, for any chain that ends.
-/

namespace Activation
set_option autoImplicit false

variable {ε : Type}

structure World.Spares (fs : List FrameId) (w v : World ε) : Prop where
  stack : v.stack = w.stack
  frame : ∀ f ∈ fs, v.frame f = w.frame f
  record : ∀ {r x}, w.records.get? r = some x → ∃ y, v.records.get? r = some y ∧ y.lastInstr = x.lastInstr

def Host.Builds (host : Host ε) (good : ε → Prop) (fs : List FrameId) (b : BuilderId) (code : Code) (ip : Int) : Prop :=
  ∀ w : World ε, good w.host → ∃ x v, host.build b code ip w = (.ok x, v) ∧ w.Spares fs v ∧ good v.host

namespace World

/-- The frame has a new record at its own position, and is otherwise as it was. -/
def Gains (w v : World ε) (f : FrameId) : Prop :=
  (w.frame f).record = none ∧
    ∃ r x, v.frame f = { w.frame f with record := some r } ∧
      w.records.get? r = none ∧ v.records.get? r = some x ∧ x.lastInstr = (w.frame f).ip

structure Furnished (fs : List FrameId) (w v : World ε) : Prop where
  stack : v.stack = w.stack
  frame : ∀ f ∈ fs, v.frame f = w.frame f ∨ w.Gains v f
  record : ∀ {r x}, w.records.get? r = some x → ∃ y, v.records.get? r = some y ∧ y.lastInstr = x.lastInstr

variable {host : Host ε} {good : ε → Prop} {fs gs inner : List FrameId} {u v w : World ε} {f : FrameId} {r : RecordId}
  {rs done : List RecordId} {o : Option FrameId}

namespace Furnished

theorem refl (fs : List FrameId) (w : World ε) : w.Furnished fs w :=
  ⟨rfl, fun _ _ => .inl rfl, fun found => ⟨_, found, rfl⟩⟩

theorem trans (first : w.Furnished fs v) (second : v.Furnished fs u) : w.Furnished fs u := by
  refine ⟨second.stack.trans first.stack, fun f mem => ?_, fun found => ?_⟩
  · rcases first.frame f mem with same | ⟨compact, r, x, gained, fresh, found, position⟩
    · rcases second.frame f mem with same' | ⟨compact, r, x, gained, fresh, found, position⟩
      · exact .inl (same'.trans same)
      · rw [same] at compact gained position
        refine .inr ⟨compact, r, x, gained, ?_, found, position⟩
        -- a record that was there before would still be there
        cases old : w.records.get? r with
        | none => rfl
        | some y =>
          obtain ⟨z, still, -⟩ := first.record old
          rw [fresh] at still
          cases still
    · rcases second.frame f mem with same | ⟨compact', -⟩
      · obtain ⟨y, still, kept⟩ := second.record found
        exact .inr ⟨compact, r, y, same.trans gained, fresh, still, kept.trans position⟩
      · rw [gained] at compact'
        cases compact'
  · obtain ⟨y, still, kept⟩ := first.record found
    obtain ⟨z, still, kept'⟩ := second.record still
    exact ⟨z, still, kept'.trans kept⟩

theorem emit (furnished : w.Furnished fs v) (e : Event) : w.Furnished fs (v.emit e) :=
  ⟨furnished.stack, furnished.frame, furnished.record⟩

theorem prev_eq (furnished : w.Furnished fs v) (mem : f ∈ fs) : (v.frame f).prev = (w.frame f).prev := by
  rcases furnished.frame f mem with same | ⟨-, r, x, gained, -⟩
  · rw [same]
  · rw [gained]

theorem leads (furnished : w.Furnished fs v) (leads : w.Leads o gs) (inside : gs ⊆ fs) : v.Leads o gs := by
  induction leads with
  | done => exact .done
  | @step f gs rest ih =>
    obtain ⟨mem, inside⟩ := List.cons_subset.mp inside
    refine .step ?_
    rw [furnished.prev_eq mem]
    exact ih inside

end Furnished

/-! ## One frame -/

theorem frame_emit (w : World ε) (e : Event) (f : FrameId) : (w.emit e).frame f = w.frame f := rfl

theorem frame_furnish_self {x : Record} {y : Frame} (there : w.frames.get? f = some y) :
    (w.furnish f x).frame f = { w.frame f with record := some w.records.next } := by
  have found := get?_furnish w x f f
  rw [if_pos rfl, there, Option.map_some] at found
  rw [frame_of_get? found, frame_of_get? there]

theorem frame_furnish_of_ne {x : Record} {g : FrameId} (other : g ≠ f) : (w.furnish f x).frame g = w.frame g := by
  have found := get?_furnish w x f g
  rw [if_neg (Ne.symm other)] at found
  rw [frame, frame, found]

theorem Spares.furnish (spares : w.Spares fs u) {b : BuilderId} (compact : (w.frame f).record = none)
    (builder : (w.frame f).builder = some b) (mem : f ∈ fs) {x : Record} (position : x.lastInstr = (w.frame f).ip) :
    w.Furnished fs (u.furnish f x) := by
  have same := spares.frame f mem
  have there : u.frames.get? f = some (u.frame f) := get?_of_part Frame.builder rfl (same ▸ builder)
  refine ⟨spares.stack, fun g mem => ?_, fun {r y} found => ?_⟩
  · by_cases here : g = f
    · subst here
      refine .inr ⟨compact, u.records.next, x, ?_, ?_, u.records.get?_insert_next x, position⟩
      · rw [frame_furnish_self there, same]
      · cases old : w.records.get? u.records.next with
        | none => rfl
        | some y =>
          obtain ⟨z, still, -⟩ := spares.record old
          exact absurd (u.records.lt_next still) (Nat.lt_irrefl _)
    · rw [frame_furnish_of_ne here]
      exact .inl (spares.frame g mem)
  · obtain ⟨z, still, kept⟩ := spares.record found
    exact ⟨z, (u.records.get?_insert_of_ne x (Nat.ne_of_lt (u.records.lt_next still))).trans still, kept⟩

theorem materialize_of_build {b : BuilderId} {x : Record} (compact : (w.frame f).record = none)
    (builder : (w.frame f).builder = some b)
    (built : host.build b (w.frame f).code (w.frame f).ip w = (.ok x, u)) :
    ∃ e, w.materialize host f =
      (.ok (.ok u.records.next), (u.furnish f { x with lastInstr := (w.frame f).ip }).emit e) := by
  simp only [materialize, compact, builder, built]
  exact ⟨_, rfl⟩

/-- A frame that can have a record has one after it is asked for, and no other frame has changed. -/
theorem materialize_of_can (here : good w.host) (mem : f ∈ fs) (can : (w.frame f).canMaterialize = true)
    (builds : ∀ b, (w.frame f).record = none → (w.frame f).builder = some b →
      host.Builds good fs b (w.frame f).code (w.frame f).ip) :
    ∃ r v, w.materialize host f = (.ok (.ok r), v) ∧ w.Furnished fs v ∧ (v.frame f).record = some r ∧
      (∀ g ∈ fs, g ≠ f → v.frame g = w.frame g) ∧ good v.host := by
  cases record : (w.frame f).record with
  | some r => exact ⟨r, w, materialize_of_record record, .refl fs w, record, fun _ _ _ => rfl, here⟩
  | none =>
    obtain ⟨b, builder⟩ : ∃ b, (w.frame f).builder = some b := by
      rw [Frame.canMaterialize, Frame.isMaterialized, record, Option.isSome_none, Bool.false_or] at can
      exact Option.isSome_iff_exists.mp can
    obtain ⟨x, u, built, spares, still⟩ := builds b record builder w here
    obtain ⟨e, made⟩ := materialize_of_build record builder built
    have furnished := spares.furnish record builder mem (x := { x with lastInstr := (w.frame f).ip }) rfl
    have there : u.frames.get? f = some (u.frame f) :=
      get?_of_part Frame.builder rfl ((spares.frame f mem).symm ▸ builder)
    refine ⟨_, _, made, furnished.emit e, ?_, fun g other ne => ?_, still⟩
    · rw [frame_emit, frame_furnish_self there]
    · rw [frame_emit, frame_furnish_of_ne ne, spares.frame g other]

/-! ## Part of the chain -/

structure Filled (fs inner : List FrameId) (w v : World ε) (rs : List RecordId) : Prop extends w.Furnished fs v where
  own : rs.map some = inner.map fun f => (v.frame f).record
  rest : ∀ g ∈ fs, g ∉ inner → v.frame g = w.frame g

/-- The induction is along the part; what is assumed of its frames is still true of those that are left. -/
theorem exists_filled (here : good w.host) (inside : inner ⊆ fs) (distinct : inner.Nodup)
    (can : ∀ f ∈ inner, (w.frame f).canMaterialize = true)
    (builds : ∀ f ∈ inner, ∀ b, (w.frame f).record = none → (w.frame f).builder = some b →
      host.Builds good fs b (w.frame f).code (w.frame f).ip) (outer : List FrameId) (done : List RecordId) :
    ∃ v rs, w.materializeEach host (inner ++ outer) done = v.materializeEach host outer (rs.reverse ++ done) ∧
      Filled fs inner w v rs := by
  induction inner generalizing w done with
  | nil => exact ⟨w, [], rfl, .refl fs w, rfl, fun _ _ _ => rfl⟩
  | cons f inner ih =>
    obtain ⟨mem, inside⟩ := List.cons_subset.mp inside
    obtain ⟨apart, distinct⟩ := List.nodup_cons.mp distinct
    obtain ⟨r, v, first, furnished, record, others, still⟩ := materialize_of_can here mem
      (can f List.mem_cons_self) (builds f List.mem_cons_self)
    have unchanged : ∀ g ∈ inner, v.frame g = w.frame g :=
      fun g later => others g (inside later) fun same => apart (same ▸ later)
    obtain ⟨u, rs, onward, filled⟩ := ih still inside distinct
      (fun g later => by rw [unchanged g later]; exact can g (List.mem_cons_of_mem f later))
      (fun g later => by rw [unchanged g later]; exact builds g (List.mem_cons_of_mem f later)) (r :: done)
    have settled : u.frame f = v.frame f := filled.rest f mem apart
    refine ⟨u, r :: rs, ?_, furnished.trans filled.toFurnished, ?_, fun g mem left => ?_⟩
    · rw [List.cons_append, materializeEach, first]
      simp only [onward, List.reverse_cons, List.append_assoc, List.singleton_append]
    · rw [List.map_cons, List.map_cons, filled.own, settled, record]
    · rw [List.mem_cons, not_or] at left
      rw [filled.rest g mem left.2, others g mem left.1]

/-- Frames that have their records are asked for them, whatever the builders would do. -/
theorem materializeEach_of_own (host : Host ε) (own : rs.map some = fs.map fun f => (w.frame f).record)
    (done : List RecordId) : ∃ e, w.materializeEach host fs done = (.ok (.ok (done.reverse ++ rs)), w.emit e) := by
  induction fs generalizing rs done with
  | nil =>
    obtain rfl : rs = [] := List.map_eq_nil_iff.mp own
    exact ⟨_, by rw [List.append_nil]; rfl⟩
  | cons f fs ih =>
    cases rs with
    | nil => cases own
    | cons r rs =>
      obtain ⟨record, own⟩ := List.cons_eq_cons.mp own
      obtain ⟨e, rest⟩ := ih own (r :: done)
      refine ⟨e, ?_⟩
      rw [materializeEach, materialize_of_record record.symm]
      simp only [rest, List.reverse_cons, List.append_assoc, List.singleton_append]

theorem Filled.materializeAll_again (filled : Filled fs fs w v rs) (leads : w.Leads w.stack.current fs) (host : Host ε) :
    ∃ e, v.materializeAll host = (.ok (.ok rs), v.emit e) := by
  have chain : v.chain = fs := by
    apply Leads.chain_eq
    rw [filled.stack]
    exact filled.toFurnished.leads leads (List.Subset.refl fs)
  obtain ⟨e, answered⟩ := materializeEach_of_own host filled.own []
  exact ⟨e, by rw [materializeAll, chain, answered]; rfl⟩

theorem Filled.isMaterialized (filled : Filled fs inner w v rs) (mem : f ∈ inner) :
    (v.frame f).isMaterialized = true := by
  have some_record : (v.frame f).record ∈ rs.map some := filled.own ▸ List.mem_map_of_mem mem
  obtain ⟨r, -, record⟩ := List.mem_map.mp some_record
  rw [Frame.isMaterialized, ← record]
  rfl

/-! ## The whole chain -/

section Chain

variable (leads : w.Leads w.stack.current fs) (here : good w.host)
  (builds : ∀ f ∈ fs, ∀ b, (w.frame f).record = none → (w.frame f).builder = some b →
    host.Builds good fs b (w.frame f).code (w.frame f).ip)

include leads here builds

theorem materializeAll_of_can (can : ∀ f ∈ fs, (w.frame f).canMaterialize = true) :
    ∃ v rs e, w.materializeAll host = (.ok (.ok rs), v.emit e) ∧ Filled fs fs w v rs := by
  obtain ⟨v, rs, run, filled⟩ := exists_filled here (List.Subset.refl fs) leads.nodup can builds [] []
  rw [List.append_nil, List.append_nil, materializeEach, List.reverse_reverse] at run
  rw [materializeAll, leads.chain_eq, run]
  exact ⟨v, rs, _, rfl, filled⟩

theorem materializeAll_of_bare {outer : List FrameId} (parts : fs = inner ++ f :: outer)
    (can : ∀ g ∈ inner, (w.frame g).canMaterialize = true) (bare : (w.frame f).canMaterialize = false) :
    ∃ v rs, w.materializeAll host = (.ok (.error (.notSupported (w.frame f).code.qualifiedName)), v) ∧
      Filled fs inner w v rs ∧ ∀ g ∈ f :: outer, v.frame g = w.frame g := by
  have inside : inner ⊆ fs := parts ▸ List.subset_append_left inner (f :: outer)
  have distinct : (inner ++ f :: outer).Nodup := parts ▸ leads.nodup
  obtain ⟨within, -, apart⟩ := List.nodup_append.mp distinct
  obtain ⟨v, rs, run, filled⟩ := exists_filled here inside within can
    (fun g mem => builds g (inside mem)) (f :: outer) []
  have same : ∀ g ∈ f :: outer, v.frame g = w.frame g := by
    intro g mem
    exact filled.rest g (parts ▸ List.mem_append_right inner mem) fun early => apart g early g mem rfl
  have refused : v.materialize host f = (.ok (.error (.notSupported (w.frame f).code.qualifiedName)), v) := by
    rw [Frame.canMaterialize, Frame.isMaterialized, Bool.or_eq_false_iff, Option.isSome_eq_false_iff,
      Option.isSome_eq_false_iff, Option.isNone_iff_eq_none, Option.isNone_iff_eq_none] at bare
    simp only [materialize, same f List.mem_cons_self, bare.1, bare.2]
  refine ⟨v, rs, ?_, filled, same⟩
  rw [materializeAll, leads.chain_eq, parts, run, materializeEach, refused]

end Chain

end World

/-! ## Builders in scripts -/

namespace Script

/-- Only objects and contexts have changed. -/
structure Aside (w v : State) : Prop where
  stack : v.stack = w.stack
  frames : v.frames = w.frames
  records : v.records = w.records
  host : v.host = w.host

theorem Aside.trans {w v u : State} (first : Aside w v) (second : Aside v u) : Aside w u :=
  ⟨second.stack.trans first.stack, second.frames.trans first.frames, second.records.trans first.records,
    second.host.trans first.host⟩

theorem aside_retain (w : State) (o : ObjId) : Aside w (w.retain o) := by
  unfold World.retain
  split
  · exact ⟨rfl, rfl, rfl, rfl⟩
  · unfold World.noteRetain World.traceCount
    split <;> exact ⟨rfl, rfl, rfl, rfl⟩

theorem aside_makeValue (w : State) (spec : ValueSpec) : Aside w (makeValue w spec).2 := by
  unfold makeValue
  split
  · exact ⟨rfl, rfl, rfl, rfl⟩
  · exact ⟨rfl, rfl, rfl, rfl⟩
  · exact ⟨rfl, rfl, rfl, rfl⟩
  · exact ⟨rfl, rfl, rfl, rfl⟩
  · split
    · exact aside_retain w _
    · exact ⟨rfl, rfl, rfl, rfl⟩
  · split <;> exact ⟨rfl, rfl, rfl, rfl⟩
  · split
    · split <;> exact ⟨rfl, rfl, rfl, rfl⟩
    · exact ⟨rfl, rfl, rfl, rfl⟩

theorem aside_makeSlots (w : State) (specs : List (Option ValueSpec)) : Aside w (makeSlots w specs).2 := by
  induction specs generalizing w with
  | nil => exact ⟨rfl, rfl, rfl, rfl⟩
  | cons spec specs ih =>
    cases spec with
    | none => exact ih w
    | some spec => exact (aside_makeValue w spec).trans (ih _)

/-- The builders are known, and none of them is made to fail. -/
def Sturdy (bs : List BuilderId) (e : Env) : Prop := ∀ b ∈ bs, ∃ x, e.builders[b]? = some x ∧ x.spec.panics = false

/-- Counts a call of a builder. -/
def noteCall (w : State) (b : BuilderId) : State :=
  w.modifyHost fun e => { e with builders := e.builders.modify b fun x => { x with calls := x.calls + 1 } }

theorem Sturdy.noteCall {w : State} {bs : List BuilderId} (sturdy : Sturdy bs w.host) (b : BuilderId) :
    Sturdy bs (noteCall w b).host := by
  intro c mem
  obtain ⟨x, known, fine⟩ := sturdy c mem
  show ∃ x, (w.host.builders.modify b _)[c]? = some x ∧ x.spec.panics = false
  rw [Array.getElem?_modify, known]
  split
  · exact ⟨_, rfl, fine⟩
  · exact ⟨x, rfl, fine⟩

/-- Builders of scripts do no more than make a record, unless they are made to fail. -/
theorem builds_buildRecord (perform : Performer) {bs : List BuilderId} {b : BuilderId} (mem : b ∈ bs)
    (fs : List FrameId) (code : Code) (ip : Int) : (hostOf perform).Builds (Sturdy bs) fs b code ip := by
  intro w sturdy
  obtain ⟨x, known, fine⟩ := sturdy b mem
  have built : buildRecord b code ip w =
      (.ok (makeRecord (noteCall w b) (x.code.getD code) x.spec.record).1,
        (makeSlots (noteCall w b) x.spec.record.slots).2) := by
    simp only [buildRecord, known, fine, Bool.false_eq_true, if_false]
    rfl
  have aside := aside_makeSlots (noteCall w b) x.spec.record.slots
  refine ⟨_, _, built, ⟨aside.stack, fun f _ => ?_, fun {r y} found => ⟨y, ?_, rfl⟩⟩, ?_⟩
  · rw [World.frame, aside.frames]
    rfl
  · rw [aside.records]
    exact found
  · rw [aside.host]
    exact sturdy.noteCall b

end Script

/-! ## The request -/

/-- If the builders that are needed do no more than make records, the request for all records succeeds exactly if every
frame of the chain can have one. It returns the records that the frames then have, and a second request returns the
same ones whatever the builders do. Otherwise the innermost frame that can have none is named, the frames inside it
have their records, and the others are as they were. -/
theorem materializeAll_decides (host : Host ε) (good : ε → Prop) (w : World ε) (fs : List FrameId)
    (leads : w.Leads w.stack.current fs) (here : good w.host)
    (builds : ∀ f ∈ fs, ∀ b, (w.frame f).record = none → (w.frame f).builder = some b →
      host.Builds good fs b (w.frame f).code (w.frame f).ip) :
    w.Furnished fs (w.materializeAll host).2 ∧
    ((∃ rs, (w.materializeAll host).1 = .ok (.ok rs)) ↔ ∀ f ∈ fs, (w.frame f).canMaterialize = true) ∧
    (∀ rs, (w.materializeAll host).1 = .ok (.ok rs) →
      rs.map some = fs.map (fun f => ((w.materializeAll host).2.frame f).record) ∧
      ∀ other : Host ε, ∃ e,
        (w.materializeAll host).2.materializeAll other = (.ok (.ok rs), (w.materializeAll host).2.emit e)) ∧
    ((¬ ∀ f ∈ fs, (w.frame f).canMaterialize = true) →
      ∃ inner f outer, fs = inner ++ f :: outer ∧ (∀ g ∈ inner, (w.frame g).canMaterialize = true) ∧
        (w.frame f).canMaterialize = false ∧
        (w.materializeAll host).1 = .ok (.error (.notSupported (w.frame f).code.qualifiedName)) ∧
        (∀ g ∈ inner, ((w.materializeAll host).2.frame g).isMaterialized = true) ∧
        ∀ g ∈ f :: outer, (w.materializeAll host).2.frame g = w.frame g) := by
  by_cases can : ∀ f ∈ fs, (w.frame f).canMaterialize = true
  · obtain ⟨v, rs, e, answered, filled⟩ := World.materializeAll_of_can leads here builds can
    have filled : World.Filled fs fs w (v.emit e) rs := ⟨filled.toFurnished.emit e, filled.own, filled.rest⟩
    rw [answered]
    refine ⟨filled.toFurnished, ⟨fun _ => can, fun _ => ⟨rs, rfl⟩⟩, fun qs same => ?_, fun cannot => absurd can cannot⟩
    cases same
    exact ⟨filled.own, filled.materializeAll_again leads⟩
  · obtain ⟨f, first⟩ : ∃ f, fs.find? (fun f => !(w.frame f).canMaterialize) = some f := by
      rw [← Option.isSome_iff_exists, List.find?_isSome]
      simpa using can
    obtain ⟨bare, inner, outer, parts, before⟩ := List.find?_eq_some_iff_append.mp first
    have bare : (w.frame f).canMaterialize = false := by simpa using bare
    have before : ∀ g ∈ inner, (w.frame g).canMaterialize = true := by simpa using before
    obtain ⟨v, rs, answered, filled, same⟩ := World.materializeAll_of_bare leads here builds parts before bare
    rw [answered]
    refine ⟨filled.toFurnished, ⟨fun ⟨qs, ok⟩ => (by cases ok), fun all => absurd all can⟩, fun qs ok => (by cases ok),
      fun _ => ⟨inner, f, outer, parts, before, bare, rfl, fun g mem => filled.isMaterialized mem, same⟩⟩

namespace Script

/-- A frame that a builder of a script serves, on one that has nothing or the same builder, on one with a record. -/
def mixed (builder : Option BuilderId) : State :=
  { frames := ((Store.empty.insert
        { code := ⟨"app", "leaf", none, 0, 1, []⟩, ip := 4, builder := some 0, prev := some 1 }).insert
      { code := ⟨"app", "task", none, 0, 2, []⟩, ip := 6, builder := builder, prev := some 2 }).insert
      { code := ⟨"app", "main", none, 0, 3, []⟩, record := some 0 }
    records := Store.empty.insert { code := ⟨"app", "main", none, 0, 3, []⟩ }
    stack := ⟨some 0, 3⟩
    host := { builders := #[{ code := none, spec := { record := { slots := [some (.plain (.int 7))] } } }] } }

theorem sturdy_mixed (builder : Option BuilderId) : Sturdy [0] (mixed builder).host := by
  intro b mem
  obtain rfl := List.mem_singleton.mp mem
  exact ⟨_, rfl, rfl⟩

theorem builds_mixed (builder : Option BuilderId) (known : ∀ b, builder = some b → b = 0) :
    ∀ f ∈ [0, 1, 2], ∀ b, ((mixed builder).frame f).record = none → ((mixed builder).frame f).builder = some b →
      (hostOf (perform nestingLimit)).Builds (Sturdy [0]) [0, 1, 2] b ((mixed builder).frame f).code
        ((mixed builder).frame f).ip := by
  intro f mem b compact served
  apply builds_buildRecord
  simp only [List.mem_cons, List.not_mem_nil, or_false] at mem
  rcases mem with rfl | rfl | rfl
  · cases served
    decide
  · obtain rfl := known b served
    decide
  · cases compact

end Script

theorem materializeAll_decides_mixed :
    (Script.mixed none).Leads (some 0) [0, 1, 2] ∧
      ((Script.mixed none).materializeAll (Script.hostOf (Script.perform Script.nestingLimit))).1 =
        .ok (.error (.notSupported "app:!task")) ∧
      (Script.mixed (some 0)).Leads (some 0) [0, 1, 2] ∧
      ∃ rs, ((Script.mixed (some 0)).materializeAll (Script.hostOf (Script.perform Script.nestingLimit))).1 =
        .ok (.ok rs) ∧ rs.length = 3 := by
  have leads (builder : Option BuilderId) : (Script.mixed builder).Leads (some 0) [0, 1, 2] :=
    .step (.step (.step .done))
  obtain ⟨-, -, -, refuses⟩ := materializeAll_decides (Script.hostOf (Script.perform Script.nestingLimit))
    (Script.Sturdy [0]) (Script.mixed none) [0, 1, 2] (leads none) (Script.sturdy_mixed none)
    (Script.builds_mixed none fun b same => absurd same (Option.some_ne_none b).symm)
  obtain ⟨-, succeeds, returns, -⟩ := materializeAll_decides (Script.hostOf (Script.perform Script.nestingLimit))
    (Script.Sturdy [0]) (Script.mixed (some 0)) [0, 1, 2] (leads (some 0)) (Script.sturdy_mixed (some 0))
    (Script.builds_mixed (some 0) fun b same => (Option.some.inj same).symm)
  obtain ⟨inner, f, outer, parts, before, bare, refused, -⟩ := refuses (by decide)
  obtain ⟨rs, returned⟩ := succeeds.mpr (by decide)
  refine ⟨leads none, ?_, leads (some 0), rs, returned, ?_⟩
  · -- the frame in the middle is the only one that has nothing
    rcases inner with _ | ⟨a, _ | ⟨b, inner⟩⟩
    · obtain ⟨rfl, -⟩ := List.cons_eq_cons.mp parts
      exact absurd bare (by decide)
    · obtain ⟨-, parts⟩ := List.cons_eq_cons.mp parts
      obtain ⟨rfl, -⟩ := List.cons_eq_cons.mp parts
      exact refused
    · obtain ⟨-, parts⟩ := List.cons_eq_cons.mp parts
      obtain ⟨rfl, -⟩ := List.cons_eq_cons.mp parts
      exact absurd (before 1 (List.mem_cons_of_mem a List.mem_cons_self)) (by decide)
  · have lengths := congrArg List.length (returns rs returned).1
    rwa [List.length_map, List.length_map] at lengths

end Activation
