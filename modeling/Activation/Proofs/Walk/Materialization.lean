import Activation.Proofs.Handles.Calls
import Activation.Proofs.Play
import Activation.Proofs.Walk.Reports
import Mathlib.Data.Finset.Card

/-! # Records on demand

Whether a frame already has its record makes no difference to a report.

* `Host.Faithful b`: the builder makes records of the code it is given, and leaves alone what reports read.
* `World.Outcome`: what a request for a record can come to.
* `World.Fuller v w`: `w` is `v` with records for some of its compact frames, each at its frame's position.
* `Host.Counts made`: the host keeps count, in its own state, of the records that each builder has made.
* `World.Counted made v w`: since `v`, each builder has made one record for each of its frames that has got one.
* `Probe`: a request for records, or a new position for a frame.
* `World.Fuller.probed`: requests for records only make a world fuller.
* `World.Counted.probed`: and no builder makes a second record for a frame.
-/

namespace Activation
set_option autoImplicit false

variable {ε : Type}

/-- All that reports read of `w` is in `v` as well. -/
structure World.Extends (w v : World ε) : Prop where
  frames : v.frames = w.frames
  stack : v.stack = w.stack
  maxDepth : v.maxDepth = w.maxDepth
  next : w.records.next ≤ v.records.next
  records : ∀ r < w.records.next, v.records.get? r = w.records.get? r

structure Host.Faithful (host : Host ε) (b : BuilderId) : Prop where
  code : ∀ {code ip x} {w v : World ε}, host.build b code ip w = (.ok x, v) → x.code = code
  quiet : ∀ {code ip result} {w v : World ε}, host.build b code ip w = (result, v) → w.Extends v

structure Host.Counts (host : Host ε) (made : ε → BuilderId → Nat) : Prop where
  makes : ∀ {b code ip x} {w v : World ε}, host.build b code ip w = (.ok x, v) →
    ∀ k, made v.host k = made w.host k + if k = b then 1 else 0
  fails : ∀ {b code ip p} {w v : World ε}, host.build b code ip w = (.error p, v) → ∀ k, made v.host k = made w.host k

namespace World

/-- The identities of the frames' records have been given out. -/
def Allotted (w : World ε) : Prop := ∀ f r, (w.frame f).record = some r → r < w.records.next

theorem allotted_of_accounted {w : World ε} {out : Multiset Handle} (acc : Accounted w out) : w.Allotted := by
  intro f r record
  have found := get?_of_part Frame.record rfl record
  have has : w.Has (.record r) := acc.has_of_frame found (by simp [Frame.held, Frame.heldRecord, record])
  obtain ⟨y, there⟩ := Option.isSome_iff_exists.mp has
  exact w.records.lt_next there

/-! ## One request -/

/-- Gives a new record to a frame. -/
def furnish (w : World ε) (f : FrameId) (x : Record) : World ε :=
  { w with
    records := w.records.insert x
    frames := w.frames.modify f fun y => { y with record := some w.records.next } }

inductive Outcome (host : Host ε) (w : World ε) (f : FrameId) :
    Except Panic (Except FrameError RecordId) × World ε → Prop where
  | had {r : RecordId} (record : (w.frame f).record = some r) : Outcome host w f (.ok (.ok r), w)
  | unsupported (compact : (w.frame f).record = none) (bare : (w.frame f).builder = none) :
      Outcome host w f (.ok (.error (.notSupported (w.frame f).code.qualifiedName)), w)
  | failed {b : BuilderId} {p : Panic} {v : World ε} (compact : (w.frame f).record = none)
      (builder : (w.frame f).builder = some b)
      (fails : host.build b (w.frame f).code (w.frame f).ip w = (.error p, v)) : Outcome host w f (.error p, v)
  | made {b : BuilderId} {x : Record} {v : World ε} (events : Array Event) (compact : (w.frame f).record = none)
      (builder : (w.frame f).builder = some b)
      (makes : host.build b (w.frame f).code (w.frame f).ip w = (.ok x, v)) :
      Outcome host w f (.ok (.ok v.records.next),
        { v.furnish f { x with lastInstr := (w.frame f).ip } with events := events })

theorem materialize_outcome (host : Host ε) (w : World ε) (f : FrameId) :
    Outcome host w f (w.materialize host f) := by
  simp only [materialize]
  split
  · next r record => exact .had record
  · next compact bare => exact .unsupported compact bare
  · next b compact builder =>
    split
    · next p v fails => exact .failed compact builder fails
    · next x v makes => exact .made _ compact builder makes

variable {host : Host ε} {u v w : World ε} {f k : FrameId} {r : RecordId}

theorem materialize_of_record (record : (w.frame f).record = some r) : w.materialize host f = (.ok (.ok r), w) := by
  cases ran : w.materialize host f with
  | mk result v =>
    have outcome := ran ▸ materialize_outcome host w f
    cases outcome with
    | had again =>
      rw [record] at again
      cases again
      rfl
    | unsupported compact _ | failed compact _ _ | made _ compact _ _ =>
      rw [record] at compact
      cases compact

theorem get?_furnish (w : World ε) (x : Record) (f k : FrameId) :
    (w.furnish f x).frames.get? k =
      if f = k then (w.frames.get? k).map fun y => { y with record := some w.records.next }
      else w.frames.get? k := Store.get?_modify ..

theorem record_furnish (x : Record) (compact : (w.frame f).record = none) :
    ((w.furnish f x).frame k).record = some r ↔
      (w.frame k).record = some r ∨ (k = f ∧ w.Has (.frame f) ∧ r = w.records.next) := by
  have found := get?_furnish w x f k
  by_cases here : f = k
  · subst here
    rw [if_pos rfl] at found
    cases there : w.frames.get? f with
    | none =>
      have missing : ¬ w.Has (.frame f) := by simp [World.Has, there]
      rw [frame, found, there]
      simp [compact, missing, Frame.absent]
    | some y =>
      have has : w.Has (.frame f) := by simp [World.Has, there]
      rw [frame, found, there]
      simp [compact, has, eq_comm]
  · have same : (w.furnish f x).frame k = w.frame k := by
      rw [frame, found, if_neg here]
      rfl
    rw [same]
    simp [Ne.symm here]

theorem record_furnish_eq_none (x : Record) (compact : (w.frame f).record = none) (has : w.Has (.frame f)) :
    ((w.furnish f x).frame k).record = none ↔ (w.frame k).record = none ∧ k ≠ f := by
  simp only [Option.eq_none_iff_forall_ne_some, ne_eq, record_furnish x compact, has]
  grind

theorem get?_furnish_frames (x : Record) (f k : FrameId) :
    (w.furnish f x).frames.get? k =
      (w.frames.get? k).map fun y => { y with record := ((w.furnish f x).frame k).record } := by
  rw [frame, get?_furnish]
  by_cases here : f = k <;> cases w.frames.get? k <;> simp [here]

/-! ## A new position -/

theorem setIp_eq (w : World ε) (f : FrameId) (ip : Int) :
    w.setIp f ip = { w with frames := (w.setIp f ip).frames, records := (w.setIp f ip).records } := by
  simp only [setIp]
  split <;> rfl

theorem frames_setIp (w : World ε) (f : FrameId) (ip : Int) :
    (w.setIp f ip).frames = w.frames.modify f fun x => { x with ip := ip } := by
  simp only [setIp]
  split <;> rfl

theorem frame_setIp {β : Type} (p : Frame → β) (keep : ∀ (x : Frame) ip, p { x with ip := ip } = p x)
    (w : World ε) (f k : FrameId) (ip : Int) : p ((w.setIp f ip).frame k) = p (w.frame k) := by
  rw [frame, frames_setIp]
  exact frame_modifyFrame p w f k _ fun x => keep x ip

theorem get?_setIp_records (w : World ε) (f : FrameId) (ip : Int) (r : RecordId) :
    (w.setIp f ip).records.get? r =
      if (w.frame f).record = some r then (w.records.get? r).map fun x => { x with lastInstr := ip }
      else w.records.get? r := by
  have same : ((w.modifyFrame f fun x => { x with ip := ip }).frame f).record = (w.frame f).record :=
    frame_modifyFrame Frame.record w f f _ fun _ => rfl
  simp only [setIp, same]
  cases (w.frame f).record with
  | none => rfl
  | some s =>
    simp only [Option.some.injEq]
    exact Store.get?_modify ..

theorem next_setIp (w : World ε) (f : FrameId) (ip : Int) : (w.setIp f ip).records.next = w.records.next := by
  simp only [setIp]
  split
  · exact Store.next_modify ..
  · rfl

/-! ## Fuller worlds -/

structure Fuller (v w : World ε) : Prop where
  stack : w.stack = v.stack
  maxDepth : w.maxDepth = v.maxDepth
  next : w.frames.next = v.frames.next
  frame : ∀ f, w.frames.get? f = (v.frames.get? f).map fun x => { x with record := (w.frame f).record }
  kept : ∀ {f r}, (v.frame f).record = some r →
    (w.frame f).record = some r ∧ w.records.get? r = v.records.get? r
  made : ∀ {f r}, (v.frame f).record = none → (w.frame f).record = some r →
    ∃ x, w.records.get? r = some x ∧ x.code = (v.frame f).code ∧ x.lastInstr = (v.frame f).ip
  alone : ∀ {f k r}, (v.frame f).record = none → (w.frame f).record = some r → (w.frame k).record = some r → k = f
  allotted : w.Allotted

namespace Fuller

theorem refl (allotted : w.Allotted) : Fuller w w where
  stack := rfl
  maxDepth := rfl
  next := rfl
  frame f := by
    rw [World.frame]
    cases w.frames.get? f <;> rfl
  kept record := ⟨record, rfl⟩
  made compact record := by
    rw [compact] at record
    cases record
  alone compact record := by
    rw [compact] at record
    cases record
  allotted := allotted

theorem frame_eq (full : Fuller v w) (f : FrameId) : w.frame f = { v.frame f with record := (w.frame f).record } := by
  have found := full.frame f
  cases there : v.frames.get? f with
  | none =>
    rw [there, Option.map_none] at found
    rw [World.frame, World.frame, there, found]
  | some x =>
    rw [there, Option.map_some] at found
    rw [frame_of_get? there]
    exact frame_of_get? found

theorem reads (full : Fuller v w) : Reads v w where
  stack := full.stack
  maxDepth := full.maxDepth
  next := full.next
  code f := by rw [full.frame_eq]
  prev f := by rw [full.frame_eq]
  awaiter f := by
    have contains : w.frames.contains = v.frames.contains := by
      funext k
      rw [Store.contains, Store.contains, full.frame k, Option.isSome_map]
    rw [awaiter, awaiter, full.frame_eq, contains]
  lastInstr f := by
    unfold lastInstr
    cases before : (v.frame f).record with
    | some r =>
      obtain ⟨after, same⟩ := full.kept before
      simp only [after, record, same]
    | none =>
      cases after : (w.frame f).record with
      | none =>
        show (w.frame f).ip = (v.frame f).ip
        rw [full.frame_eq]
      | some r =>
        obtain ⟨x, found, -, position⟩ := full.made before after
        simp only [record, found, Option.getD_some, position]
  name f := by
    unfold resolve
    cases before : (v.frame f).record with
    | some r =>
      obtain ⟨after, same⟩ := full.kept before
      simp only [after, record, same]
    | none =>
      cases after : (w.frame f).record with
      | none =>
        show (w.frame f).code.qualifiedName = (v.frame f).code.qualifiedName
        rw [full.frame_eq]
      | some r =>
        obtain ⟨x, found, code, -⟩ := full.made before after
        simp only [record, found, Option.getD_some, code]

theorem widen (full : Fuller v w) (wide : w.Extends u) : Fuller v u := by
  have same : ∀ f, u.frame f = w.frame f := fun f => by rw [World.frame, World.frame, wide.frames]
  exact {
    stack := wide.stack.trans full.stack
    maxDepth := wide.maxDepth.trans full.maxDepth
    next := by rw [wide.frames, full.next]
    frame := fun f => by rw [wide.frames, same, full.frame]
    kept := fun {f r} before => by
      obtain ⟨after, found⟩ := full.kept before
      rw [same, wide.records r (full.allotted f r after)]
      exact ⟨after, found⟩
    made := fun {f r} before after => by
      rw [same] at after
      rw [wide.records r (full.allotted f r after)]
      exact full.made before after
    alone := fun {f k r} before after shared => by
      rw [same] at after shared
      exact full.alone before after shared
    allotted := fun f r record => by
      rw [same] at record
      exact Nat.lt_of_lt_of_le (full.allotted f r record) wide.next }

theorem furnish (full : Fuller v w) (compact : (w.frame f).record = none) {x : Record}
    (code : x.code = (w.frame f).code) (position : x.lastInstr = (w.frame f).ip) : Fuller v (w.furnish f x) := by
  have old : ∀ {k r}, (w.frame k).record = some r → (w.records.insert x).get? r = w.records.get? r := by
    intro k r record
    exact w.records.get?_insert_of_ne x (Nat.ne_of_lt (full.allotted k r record))
  have fresh : ∀ k, (w.frame k).record ≠ some w.records.next := by
    intro k record
    exact Nat.lt_irrefl _ (full.allotted k _ record)
  exact {
    stack := full.stack
    maxDepth := full.maxDepth
    next := by rw [World.furnish, Store.next_modify, full.next]
    frame := fun k => by
      rw [get?_furnish_frames, full.frame, Option.map_map]
      rfl
    kept := fun {k r} before => by
      obtain ⟨after, found⟩ := full.kept before
      refine ⟨(record_furnish x compact).mpr (.inl after), ?_⟩
      rw [World.furnish, old after, found]
    made := fun {k r} before after => by
      rcases (record_furnish x compact).mp after with had | ⟨rfl, -, rfl⟩
      · obtain ⟨y, found, same⟩ := full.made before had
        exact ⟨y, (old had).trans found, same⟩
      · rw [full.frame_eq] at code position
        exact ⟨x, w.records.get?_insert_next x, code, position⟩
    alone := fun {k l r} before after shared => by
      rcases (record_furnish x compact).mp after with had | ⟨rfl, -, rfl⟩
      · rcases (record_furnish x compact).mp shared with also | ⟨-, -, rfl⟩
        · exact full.alone before had also
        · exact absurd had (fresh k)
      · rcases (record_furnish x compact).mp shared with also | ⟨same, -⟩
        · exact absurd also (fresh l)
        · exact same
    allotted := fun k r record => by
      rw [World.furnish, Store.next_insert]
      rcases (record_furnish x compact).mp record with had | ⟨-, -, rfl⟩
      · exact Nat.lt_succ_of_lt (full.allotted k r had)
      · exact Nat.lt_succ_self _ }

theorem materialize (full : Fuller v w) (faithful : ∀ b, (v.frame f).builder = some b → host.Faithful b) :
    Fuller v (w.materialize host f).2 := by
  have builders : (w.frame f).builder = (v.frame f).builder := by rw [full.frame_eq]
  cases ran : w.materialize host f with
  | mk result u =>
    cases ran ▸ materialize_outcome host w f with
    | had _ => exact full
    | unsupported _ _ => exact full
    | failed compact builder fails => exact full.widen ((faithful _ (builders ▸ builder)).quiet fails)
    | @made b x u events compact builder makes =>
      have faithful := faithful b (builders ▸ builder)
      have wide := faithful.quiet makes
      have same : u.frame f = w.frame f := by rw [World.frame, World.frame, wide.frames]
      have code : x.code = (u.frame f).code := by rw [same, faithful.code makes]
      have furnished := (full.widen wide).furnish (x := { x with lastInstr := (w.frame f).ip })
        (same.symm ▸ compact) code (same.symm ▸ rfl)
      exact furnished.widen ⟨rfl, rfl, rfl, Nat.le_refl _, fun _ _ => rfl⟩

theorem setIp (full : Fuller v w) (f : FrameId) (ip : Int) : Fuller (v.setIp f ip) (w.setIp f ip) := by
  have recorded : ∀ (u : World ε) k, ((u.setIp f ip).frame k).record = (u.frame k).record :=
    fun u k => frame_setIp Frame.record (fun _ _ => rfl) u f k ip
  constructor
  case stack =>
    rw [setIp_eq v, setIp_eq w]
    exact full.stack
  case maxDepth =>
    rw [setIp_eq v, setIp_eq w]
    exact full.maxDepth
  case next => rw [frames_setIp, frames_setIp, Store.next_modify, Store.next_modify, full.next]
  case frame =>
    intro k
    rw [recorded, frames_setIp, frames_setIp, Store.get?_modify, Store.get?_modify, full.frame k]
    split
    · rw [Option.map_map, Option.map_map]
      rfl
    · rfl
  case kept =>
    intro k r before
    rw [recorded] at before
    obtain ⟨after, found⟩ := full.kept before
    -- a record that was there before is a frame's in both worlds, or in neither
    have same : (w.frame f).record = some r ↔ (v.frame f).record = some r := by
      refine ⟨fun shared => ?_, fun shared => (full.kept shared).1⟩
      cases mine : (v.frame f).record with
      | none =>
        obtain rfl := full.alone mine shared after
        rw [before] at mine
        cases mine
      | some s => rw [← (full.kept mine).1, shared]
    rw [recorded, get?_setIp_records, get?_setIp_records, found]
    refine ⟨after, ?_⟩
    simp only [same]
  case made =>
    intro k r before after
    rw [recorded] at before after
    obtain ⟨x, found, code, position⟩ := full.made before after
    rw [get?_setIp_records, found]
    by_cases here : f = k
    · subst here
      obtain ⟨y, there, -⟩ := Option.map_eq_some_iff.mp
        ((full.frame f).symm.trans (get?_of_part Frame.record rfl after))
      have moved : (v.setIp f ip).frame f = { y with ip := ip } := by
        apply frame_of_get?
        rw [frames_setIp, Store.get?_modify, if_pos rfl, there, Option.map_some]
      rw [if_pos after, moved]
      exact ⟨_, rfl, code.trans (by rw [frame_of_get? there]), rfl⟩
    · have other : (w.frame f).record ≠ some r := fun shared => here (full.alone before after shared)
      have still : (v.setIp f ip).frame k = v.frame k := by
        rw [World.frame, frames_setIp, Store.get?_modify, if_neg here]
        rfl
      rw [if_neg other, still]
      exact ⟨x, rfl, code, position⟩
  case alone =>
    intro k l r before after shared
    rw [recorded] at before after shared
    exact full.alone before after shared
  case allotted =>
    intro k r record
    rw [recorded] at record
    rw [next_setIp]
    exact full.allotted k r record

end Fuller

/-- The frames' records and builders are in order. -/
structure Served (host : Host ε) (w : World ε) : Prop where
  allotted : w.Allotted
  faithful : ∀ f b, (w.frame f).builder = some b → host.Faithful b

theorem Served.fuller (served : Served host v) (full : Fuller v w) : Served host w where
  allotted := full.allotted
  faithful f b builder := by
    rw [full.frame_eq] at builder
    exact served.faithful f b builder

theorem record_of_materialize (served : Served host w) (returned : w.materialize host f = (.ok (.ok r), v)) :
    (v.frame f).record = some r := by
  have outcome := returned ▸ materialize_outcome host w f
  cases outcome with
  | had record => exact record
  | @made b x u events compact builder makes =>
    have wide := (served.faithful f b builder).quiet makes
    have same : u.frame f = w.frame f := by rw [World.frame, World.frame, wide.frames]
    have there : u.Has (.frame f) := by
      rw [World.Has, get?_of_part Frame.builder rfl (same.symm ▸ builder)]
      rfl
    exact (record_furnish { x with lastInstr := (w.frame f).ip } (same.symm ▸ compact)).mpr (.inr ⟨rfl, there, rfl⟩)

theorem frames_of_failure (served : Served host w) (fails : ∀ r, (w.materialize host f).1 ≠ .ok (.ok r)) :
    (w.materialize host f).2.frames = w.frames := by
  cases ran : w.materialize host f with
  | mk result v =>
    rw [ran] at fails
    cases ran ▸ materialize_outcome host w f with
    | had _ => exact absurd rfl (fails _)
    | unsupported _ _ => rfl
    | failed compact builder broken => exact ((served.faithful _ _ builder).quiet broken).frames
    | made _ _ _ _ => exact absurd rfl (fails _)

/-! ## Requests for several records -/

/-- The world after requests for the records of these frames, up to the first one that fails. -/
def request (host : Host ε) (w : World ε) : List FrameId → World ε
  | [] => w
  | f :: fs =>
    match w.materialize host f with
    | (.ok (.ok _), v) => v.request host fs
    | (_, v) => v

theorem materializeEach_eq (host : Host ε) (w : World ε) (fs : List FrameId) (done : List RecordId) :
    ∃ events, (w.materializeEach host fs done).2 = { w.request host fs with events := events } := by
  induction fs generalizing w done with
  | nil => exact ⟨_, rfl⟩
  | cons f fs ih =>
    rw [materializeEach, request]
    rcases w.materialize host f with ⟨_ | _ | r, v⟩
    · exact ⟨v.events, rfl⟩
    · exact ⟨v.events, rfl⟩
    · exact ih v (r :: done)

theorem Fuller.request (full : Fuller v w) (served : Served host v) (fs : List FrameId) :
    Fuller v (w.request host fs) := by
  induction fs generalizing w with
  | nil => exact full
  | cons f fs ih =>
    have first := full.materialize (served.faithful f)
    rw [World.request]
    generalize w.materialize host f = answer at first ⊢
    rcases answer with ⟨_ | _ | r, u⟩
    · exact first
    · exact first
    · exact ih first

/-- A request for several records returns the records that the frames then have. -/
theorem records_of_materializeEach (served : Served host w) {fs : List FrameId} {done rs : List RecordId}
    (returned : (w.materializeEach host fs done).1 = .ok (.ok rs)) :
    rs.map some = done.reverse.map some ++ fs.map fun f => ((w.request host fs).frame f).record := by
  induction fs generalizing w done with
  | nil =>
    cases returned
    rw [List.map_nil, List.append_nil]
  | cons f fs ih =>
    rw [materializeEach] at returned
    rw [request]
    have first := (Fuller.refl served.allotted).materialize (served.faithful f)
    rcases ran : w.materialize host f with ⟨_ | _ | r, v⟩
    · rw [ran] at returned
      cases returned
    · rw [ran] at returned
      cases returned
    · rw [ran] at returned first
      have served' := served.fuller first
      have later := (Fuller.refl served'.allotted).request served' fs
      rw [ih served' returned, List.map_cons, (later.kept (record_of_materialize served ran)).1, List.reverse_cons,
        List.map_append, List.append_assoc]
      rfl

/-! ## Calls of builders -/

/-- The frames of a builder that were compact and have a record now. -/
def furnished (v w : World ε) (b : BuilderId) : Finset FrameId :=
  (Finset.range v.frames.next).filter fun f =>
    (v.frame f).builder = some b ∧ (v.frame f).record = none ∧ (w.frame f).record ≠ none

structure Counted (made : ε → BuilderId → Nat) (v w : World ε) : Prop where
  next : w.frames.next = v.frames.next
  builder : ∀ f, (w.frame f).builder = (v.frame f).builder
  kept : ∀ f, (w.frame f).record = none → (v.frame f).record = none
  count : ∀ b, made w.host b = made v.host b + (v.furnished w b).card

theorem mem_furnished {b : BuilderId} : f ∈ v.furnished w b ↔
    f < v.frames.next ∧ (v.frame f).builder = some b ∧ (v.frame f).record = none ∧ (w.frame f).record ≠ none := by
  rw [furnished, Finset.mem_filter, Finset.mem_range]

/-- Of all frames one gets a record, and it counts for its builder. -/
theorem furnished_eq_ite {b : BuilderId} (compact : (v.frame f).record = none)
    (builder : (v.frame f).builder = some b)
    (record : ∀ k, (w.frame k).record = none ↔ (v.frame k).record = none ∧ k ≠ f) (k : BuilderId) :
    v.furnished w k = if k = b then {f} else ∅ := by
  ext g
  rw [mem_furnished]
  constructor
  · rintro ⟨-, own, bare, after⟩
    have here : g = f := by
      by_contra other
      exact after ((record g).mpr ⟨bare, other⟩)
    subst here
    rw [builder] at own
    cases own
    rw [if_pos rfl]
    exact Finset.mem_singleton_self g
  · intro mem
    split at mem
    · next own =>
      subst own
      obtain rfl := Finset.mem_singleton.mp mem
      exact ⟨v.frames.lt_next (get?_of_part Frame.builder rfl builder), builder, compact,
        fun after => ((record g).mp after).2 rfl⟩
    · exact absurd mem (Finset.notMem_empty g)

namespace Counted

variable {made : ε → BuilderId → Nat}

/-- Nothing is counted while no frame gets a record. -/
theorem of_frames (next : w.frames.next = v.frames.next) (builder : ∀ f, (w.frame f).builder = (v.frame f).builder)
    (record : ∀ f, (w.frame f).record = (v.frame f).record) (count : ∀ b, made w.host b = made v.host b) :
    Counted made v w where
  next := next
  builder := builder
  kept f compact := (record f).symm.trans compact
  count b := by
    have untouched : v.furnished w b = ∅ := by
      refine Finset.eq_empty_of_forall_notMem fun f mem => ?_
      obtain ⟨-, -, compact, after⟩ := mem_furnished.mp mem
      exact after ((record f).trans compact)
    rw [untouched, Finset.card_empty, Nat.add_zero, count b]

theorem refl (made : ε → BuilderId → Nat) (w : World ε) : Counted made w w :=
  of_frames rfl (fun _ => rfl) (fun _ => rfl) fun _ => rfl

/-- A frame that gets its record first is not counted again. -/
theorem trans (first : Counted made u v) (second : Counted made v w) : Counted made u w where
  next := second.next.trans first.next
  builder f := (second.builder f).trans (first.builder f)
  kept f compact := first.kept f (second.kept f compact)
  count b := by
    have union : u.furnished w b = u.furnished v b ∪ v.furnished w b := by
      ext f
      rw [Finset.mem_union, mem_furnished, mem_furnished, mem_furnished, first.next, first.builder f]
      have before := first.kept f
      have after := second.kept f
      by_cases between : (v.frame f).record = none
      · simp [between, before between]
      · simp [between, mt after between]
    have apart : Disjoint (u.furnished v b) (v.furnished w b) := by
      refine Finset.disjoint_left.mpr fun f early late => ?_
      exact (mem_furnished.mp early).2.2.2 (mem_furnished.mp late).2.2.1
    rw [second.count b, first.count b, union, Finset.card_union_of_disjoint apart, Nat.add_assoc]

theorem furnish (counts : host.Counts made) {b : BuilderId} {x y : Record} (events : Array Event)
    (compact : (w.frame f).record = none) (builder : (w.frame f).builder = some b)
    (makes : host.build b (w.frame f).code (w.frame f).ip w = (.ok x, v)) (wide : w.Extends v) :
    Counted made w { v.furnish f y with events := events } := by
  have same : ∀ k, v.frame k = w.frame k := fun k => by rw [World.frame, World.frame, wide.frames]
  have record : ∀ k, ((v.furnish f y).frame k).record = none ↔ (w.frame k).record = none ∧ k ≠ f := by
    intro k
    rw [← same f] at compact builder
    rw [← same k]
    exact record_furnish_eq_none y compact (Option.isSome_of_eq_some (get?_of_part Frame.builder rfl builder))
  constructor
  case next => exact (Store.next_modify ..).trans (by rw [wide.frames])
  case builder =>
    intro k
    rw [← same k]
    exact frame_modifyFrame Frame.builder v f k _ fun _ => rfl
  case kept => exact fun k after => ((record k).mp after).1
  case count =>
    intro k
    have only : w.furnished (v.furnish f y) k = if k = b then {f} else ∅ := furnished_eq_ite compact builder record k
    show made v.host k = made w.host k + (w.furnished (v.furnish f y) k).card
    rw [counts.makes makes k, only]
    split <;> rfl

theorem materialize (counts : host.Counts made) (served : Served host w) (f : FrameId) :
    Counted made w (w.materialize host f).2 := by
  cases ran : w.materialize host f with
  | mk result u =>
    cases ran ▸ materialize_outcome host w f with
    | had _ => exact .refl made w
    | unsupported _ _ => exact .refl made w
    | failed compact builder fails =>
      have frames := ((served.faithful f _ builder).quiet fails).frames
      have same : ∀ k, u.frame k = w.frame k := fun k => by rw [World.frame, World.frame, frames]
      exact .of_frames (by rw [frames]) (fun k => by rw [same]) (fun k => by rw [same]) (counts.fails fails)
    | made events compact builder makes =>
      exact .furnish counts events compact builder makes ((served.faithful f _ builder).quiet makes)

theorem request (counts : host.Counts made) (served : Served host w) (fs : List FrameId) :
    Counted made w (w.request host fs) := by
  induction fs generalizing w with
  | nil => exact .refl made w
  | cons f fs ih =>
    have first := Counted.materialize counts served f
    have full := (Fuller.refl served.allotted).materialize (served.faithful f)
    rw [World.request]
    generalize w.materialize host f = answer at first full ⊢
    rcases answer with ⟨_ | _ | r, u⟩
    · exact first
    · exact first
    · exact first.trans (ih (served.fuller full))

end Counted

end World

/-! ## Probes -/

inductive Probe where
  | materialize (f : FrameId)
  | materializeAll
  | awaiterFrame
  | setIp (f : FrameId) (ip : Int)

namespace Probe

def isSetIp : Probe → Bool
  | .setIp _ _ => true
  | _ => false

def run (host : Host ε) (w : World ε) : Probe → World ε
  | .materialize f => (w.materialize host f).2
  | .materializeAll => (w.materializeAll host).2
  | .awaiterFrame => (w.awaiterFrame host).2
  | .setIp f ip => w.setIp f ip

/-- The frames whose records are asked for. -/
def targets (w : World ε) : Probe → List FrameId
  | .materialize f => [f]
  | .materializeAll => w.chain
  | .awaiterFrame => (w.stack.current.bind w.awaiter).toList
  | .setIp _ _ => []

theorem exists_setIp {p : Probe} (moves : p.isSetIp = true) : ∃ f ip, p = .setIp f ip := by
  cases p with
  | setIp f ip => exact ⟨f, ip, rfl⟩
  | materialize _ | materializeAll | awaiterFrame => cases moves

theorem run_eq (host : Host ε) (w : World ε) {p : Probe} (asks : p.isSetIp = false) :
    ∃ events, p.run host w = { w.request host (p.targets w) with events := events } := by
  have single : ∀ f, w.request host [f] = (w.materialize host f).2 := by
    intro f
    rw [World.request]
    rcases w.materialize host f with ⟨_ | _ | r, v⟩ <;> rfl
  cases p with
  | materialize f => exact ⟨_, (single f).symm⟩
  | materializeAll => exact World.materializeEach_eq host w w.chain []
  | awaiterFrame =>
    simp only [run, targets, World.awaiterFrame]
    cases w.stack.current.bind w.awaiter with
    | none => exact ⟨_, rfl⟩
    | some a => exact ⟨_, (single a).symm⟩
  | setIp f ip => cases asks

end Probe

namespace World

def probed (host : Host ε) (w : World ε) (ps : List Probe) : World ε := ps.foldl (Probe.run host) w

variable {host : Host ε} {v w : World ε} {f : FrameId} {r : RecordId}

theorem probed_append (host : Host ε) (w : World ε) (ps qs : List Probe) :
    w.probed host (ps ++ qs) = (w.probed host ps).probed host qs := List.foldl_append

theorem Fuller.ask (full : Fuller v w) (served : Served host v) {p : Probe} (asks : p.isSetIp = false) :
    Fuller v (p.run host w) := by
  obtain ⟨events, eq⟩ := p.run_eq host w asks
  rw [eq]
  exact (full.request served (p.targets w)).widen ⟨rfl, rfl, rfl, Nat.le_refl _, fun _ _ => rfl⟩

theorem Served.setIp (served : Served host w) (f : FrameId) (ip : Int) : Served host (w.setIp f ip) where
  allotted := ((Fuller.refl served.allotted).setIp f ip).allotted
  faithful k b builder := by
    rw [frame_setIp Frame.builder fun _ _ => rfl] at builder
    exact served.faithful k b builder

theorem Served.run (served : Served host w) (p : Probe) : Served host (p.run host w) := by
  cases asks : p.isSetIp with
  | false => exact served.fuller ((Fuller.refl served.allotted).ask served asks)
  | true =>
    obtain ⟨f, ip, rfl⟩ := Probe.exists_setIp asks
    exact served.setIp f ip

theorem Served.probed (served : Served host w) (ps : List Probe) : Served host (w.probed host ps) := by
  induction ps generalizing w with
  | nil => exact served
  | cons p ps ih => exact ih (served.run p)

theorem Fuller.probed (full : Fuller v w) (served : Served host v) (ps : List Probe) :
    Fuller (v.probed host (ps.filter Probe.isSetIp)) (w.probed host ps) := by
  induction ps generalizing v w with
  | nil => exact full
  | cons p ps ih =>
    cases asks : p.isSetIp with
    | false =>
      rw [List.filter_cons_of_neg (by simp [asks])]
      exact ih (full.ask served asks) served
    | true =>
      rw [List.filter_cons_of_pos asks]
      obtain ⟨f, ip, rfl⟩ := Probe.exists_setIp asks
      exact ih (full.setIp f ip) (served.setIp f ip)

theorem record_run (served : Served host w) (record : (w.frame f).record = some r) (p : Probe) :
    ((p.run host w).frame f).record = some r := by
  cases asks : p.isSetIp with
  | false => exact (((Fuller.refl served.allotted).ask served asks).kept record).1
  | true =>
    obtain ⟨k, ip, rfl⟩ := Probe.exists_setIp asks
    exact (frame_setIp Frame.record (fun _ _ => rfl) w k f ip).trans record

theorem record_probed (served : Served host w) (record : (w.frame f).record = some r) (ps : List Probe) :
    ((w.probed host ps).frame f).record = some r := by
  induction ps generalizing w with
  | nil => exact record
  | cons p ps ih => exact ih (served.run p) (record_run served record p)

theorem Counted.run {made : ε → BuilderId → Nat} (counts : host.Counts made) (served : Served host w) (p : Probe) :
    Counted made w (p.run host w) := by
  cases asks : p.isSetIp with
  | false =>
    obtain ⟨events, eq⟩ := p.run_eq host w asks
    rw [eq]
    exact (Counted.request counts served (p.targets w)).trans
      (.of_frames rfl (fun _ => rfl) (fun _ => rfl) fun _ => rfl)
  | true =>
    obtain ⟨f, ip, rfl⟩ := Probe.exists_setIp asks
    refine .of_frames ?_ (fun k => frame_setIp Frame.builder (fun _ _ => rfl) w f k ip)
      (fun k => frame_setIp Frame.record (fun _ _ => rfl) w f k ip) fun b => ?_
    · exact (congrArg Store.next (frames_setIp w f ip)).trans (Store.next_modify ..)
    · show made (w.setIp f ip).host b = made w.host b
      rw [setIp_eq]

theorem Counted.probed {made : ε → BuilderId → Nat} (counts : host.Counts made) (served : Served host w)
    (ps : List Probe) : Counted made w (w.probed host ps) := by
  induction ps generalizing w with
  | nil => exact .refl made w
  | cons p ps ih => exact (Counted.run counts served p).trans (ih (served.run p))

/-- A builder with one frame makes one record at most. -/
theorem card_furnished_le {b : BuilderId} (own : ∀ k, (v.frame k).builder = some b → k = f) :
    (v.furnished w b).card ≤ 1 := by
  rw [Finset.card_le_one]
  intro j first k second
  rw [own j (mem_furnished.mp first).2.1, own k (mem_furnished.mp second).2.1]

end World

/-! ## Reports do not depend on records -/

theorem materialization_unobservable (host : Host ε) (w : World ε) (served : w.Served host) :
    (∀ ps, (w.probed host (ps.filter Probe.isSetIp)).SameReports (w.probed host ps)) ∧
    -- For each of its frames that gets a record the builder completes once, and otherwise not at all.
    (∀ made, host.Counts made → ∀ ps b,
      made (w.probed host ps).host b = made w.host b + ((Finset.range w.frames.next).filter fun f =>
        (w.frame f).builder = some b ∧ (w.frame f).record = none ∧ ((w.probed host ps).frame f).record ≠ none).card ∧
      ∀ f, (∀ k, (w.frame k).builder = some b → k = f) → made (w.probed host ps).host b ≤ made w.host b + 1) ∧
    (∀ ps qs f r, ((w.probed host ps).materialize host f).1 = .ok (.ok r) →
      let v := w.probed host (ps ++ .materialize f :: qs)
      v.materialize host f = (.ok (.ok r), v)) ∧
    (∀ ps rs, ((w.probed host ps).materializeAll host).1 = .ok (.ok rs) →
      rs.map some = (w.probed host ps).chain.map fun f =>
        ((w.probed host (ps ++ [.materializeAll])).frame f).record) ∧
    (∀ ps qs f r, ((w.probed host ps).frame f).record = some r →
      ((w.probed host (ps ++ qs)).frame f).record = some r) ∧
    (∀ ps f, (∀ r, ((w.probed host ps).materialize host f).1 ≠ .ok (.ok r)) →
      ((w.probed host ps).materialize host f).2.frames = (w.probed host ps).frames) := by
  refine ⟨?_, ?_, ?_, ?_, ?_, ?_⟩
  · intro ps
    exact ((World.Fuller.refl served.allotted).probed served ps).reads.sameReports
  · intro made counts ps b
    have count := (World.Counted.probed counts served ps).count b
    refine ⟨count, fun f own => ?_⟩
    rw [count]
    exact Nat.add_le_add_left (World.card_furnished_le own) _
  · intro ps qs f r returned
    have served := served.probed ps
    have record : (((w.probed host ps).materialize host f).2.frame f).record = some r :=
      World.record_of_materialize served (Prod.ext returned rfl)
    apply World.materialize_of_record
    rw [World.probed_append]
    exact World.record_probed (served.run (.materialize f)) record qs
  · intro ps rs returned
    have served := served.probed ps
    obtain ⟨events, eq⟩ := Probe.run_eq (p := .materializeAll) host (w.probed host ps) rfl
    rw [World.probed_append]
    show _ = List.map (fun f => ((Probe.materializeAll.run host (w.probed host ps)).frame f).record) _
    rw [eq]
    exact World.records_of_materializeEach served returned
  · intro ps qs f r record
    rw [World.probed_append]
    exact World.record_probed (served.probed ps) record qs
  · intro ps f fails
    exact World.frames_of_failure (served.probed ps) fails

/-- One builder makes records, all others fail. The host remembers who has made a record. -/
def Host.scribe : Host (List BuilderId) where
  step _ _ _ w := (.returns nothing, w)
  build b code ip w :=
    if b = 0 then
      (.ok { code := code, lastInstr := 99, state := .suspended }, { w with host := b :: w.host })
    else (.error (.builder ip), w)

theorem Host.scribe_faithful (b : BuilderId) : Host.scribe.Faithful b where
  code := by
    intro code ip x w v makes
    simp only [Host.scribe] at makes
    split at makes <;> cases makes
    rfl
  quiet := by
    intro code ip result w v called
    simp only [Host.scribe] at called
    split at called <;> cases called <;> exact ⟨rfl, rfl, rfl, Nat.le_refl _, fun _ _ => rfl⟩

theorem Host.scribe_counts : Host.scribe.Counts fun makers b => makers.count b where
  makes := by
    intro b code ip x w v makes k
    simp only [Host.scribe] at makes
    split at makes <;> cases makes
    simp only [List.count_cons, beq_iff_eq, @eq_comm _ k b]
  fails := by
    intro b code ip p w v fails k
    simp only [Host.scribe] at fails
    split at fails <;> cases fails
    rfl

theorem materialization_unobservable_halfway :
    ∃ ls c, Run (Config.start []) ls c ∧ c.world.Served Host.scribe ∧ c.world.host = [] ∧
      (∀ k, (c.world.frame k).builder = some 0 → k = 2) ∧
      (c.world.probed Host.scribe [.materialize 2, .setIp 2 7, .materializeAll, .awaiterFrame]).host.count 0 = 1 ∧
      (c.world.setIp 2 7).SameReports
        (c.world.probed Host.scribe [.materialize 2, .setIp 2 7, .materializeAll, .awaiterFrame]) := by
  -- three frames: one with a record, on it one whose builder fails, and on that one whose builder works
  obtain ⟨ls, c, run, holds⟩ := Config.exists_run (p := fun _ c => decide (c.world.host = []) &&
      decide (c.world.frames.next = 3 ∧ (c.world.frame 0).builder ≠ some 0 ∧ (c.world.frame 1).builder ≠ some 0) &&
      decide (0 ∈ (c.world.probed Host.scribe [.materialize 2, .setIp 2 7, .materializeAll, .awaiterFrame]).host))
    [.call (.newRecord { code := { module := "app", name := "main" } }),
      .call (.newInterpretedFrame 0), .call (.newFrame { module := "app", name := "task" } (some 1)),
      .call (.newFrame { module := "app", name := "leaf" } (some 0)),
      .call (.push 0), .call (.push 1), .call (.push 2), .call (.setIp 2 4)]
    (by decide +kernel : ((Config.start []).playAll? _).any _ = true)
  simp only [Bool.and_eq_true, decide_eq_true_eq] at holds
  obtain ⟨⟨idle, next, first, second⟩, made⟩ := holds
  have served : c.world.Served Host.scribe :=
    ⟨World.allotted_of_accounted (run.sound (Config.start_sound [])).accounted, fun _ b _ => Host.scribe_faithful b⟩
  have own : ∀ k, (c.world.frame k).builder = some 0 → k = 2 := by
    intro k builder
    have given : k < 3 := next ▸ c.world.frames.lt_next (World.get?_of_part Frame.builder rfl builder)
    match k with
    | 0 => exact absurd builder first
    | 1 => exact absurd builder second
    | 2 => rfl
  obtain ⟨same, once, -⟩ := materialization_unobservable Host.scribe c.world served
  obtain ⟨-, most⟩ := once _ Host.scribe_counts [.materialize 2, .setIp 2 7, .materializeAll, .awaiterFrame] 0
  have most := most 2 own
  rw [idle] at most
  exact ⟨ls, c, run, served, idle, own, Nat.le_antisymm most (List.one_le_count_iff.mpr made),
    same [.materialize 2, .setIp 2 7, .materializeAll, .awaiterFrame]⟩

end Activation
