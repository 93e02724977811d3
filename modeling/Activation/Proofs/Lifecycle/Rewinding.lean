import Activation.Proofs.Lifecycle.Straying
import Activation.Proofs.Stack.Steps

/-! # Rewinding

Whether an interpreted context has begun is read off the position of its record, and a body may set the position of
its frame to anything. A body that sets it back to the start rewinds its context.

* `Label.Discreet`: a lawful step, or a body that sets its own position or strays.
* `placeOf f ls`: where the frame was put last, since a body last took over on it.
* `Config.Marked`: how the position of the record follows from the history of the context and that place.
* `Kept.charted`: every context of a discreet program is marked so.
* `started_unless_rewound`: what that means for requests; `resume_starts_over`: a body that rewinds its context.
-/

namespace Activation
set_option autoImplicit false

variable {ε : Type}

/-! ## Discreet steps -/

/-- The bodies of all interpreted contexts on the frame are running. -/
def Config.Tended (c : Config ε) (f : FrameId) : Prop :=
  ∀ g, (c.world.generator g).frame = f → (c.world.generator g).live.isSome → ∃ t ∈ c.turns, t.context = g

def Op.Discreet (c : Config ε) : Op → Prop
  | .setIp f _ => c.Tended f
  | op => op.Lawful c

def Label.Discreet (c : Config ε) : Label → Prop
  | .op call => call.Discreet c
  | .strayed _ _ _ => True
  | l => l.Lawful c

/-- A rule for programs where only the bodies of contexts set their positions. -/
def discreet (c : Config ε) (l : Label) : Prop := l.Discreet c

instance Config.decidableTended (c : Config ε) (f : FrameId) : Decidable (c.Tended f) :=
  decidable_of_iff (∀ g < c.world.generators.next, (c.world.generator g).frame = f →
    (c.world.generator g).live.isSome → ∃ t ∈ c.turns, t.context = g) <| by
    refine ⟨fun all g place live => ?_, fun all g _ => all g⟩
    by_cases given : g < c.world.generators.next
    · exact all g given place live
    · rw [World.live_of_late given] at live
      cases live

instance Op.decidableDiscreet (c : Config ε) (op : Op) : Decidable (op.Discreet c) := by
  unfold Op.Discreet
  split <;> infer_instance

instance discreet.decidable (c : Config ε) (l : Label) : Decidable (discreet c l) := by
  unfold discreet Label.Discreet
  split <;> infer_instance

/-- A discreet step that is not lawful sets a position or strays. -/
theorem Label.Discreet.cases {c : Config ε} {l : Label} (discreet : l.Discreet c) :
    l.Lawful c ∨ (∃ f ip, l = .op (.setIp f ip)) ∨ ∃ t ending result, l = .strayed t ending result := by
  cases l with
  | op call =>
    cases call with
    | setIp f ip => exact .inr (.inl ⟨f, ip, rfl⟩)
    | _ => exact .inl discreet
  | strayed t ending result => exact .inr (.inr ⟨t, ending, result, rfl⟩)
  | _ => exact .inl discreet

/-- Setting a position and straying have nothing to do with who has a record. -/
theorem Step.priv_of_cases {c d : Config ε} {l : Label} (sound : c.Sound) (priv : c.world.Private) (step : Step c l d)
    (mild : l.Lawful c ∨ (∃ f ip, l = .op (.setIp f ip)) ∨ ∃ t ending result, l = .strayed t ending result) :
    d.world.Private := by
  rcases mild with lawful | ⟨f, ip, rfl⟩ | ⟨t, ending, result, rfl⟩
  · exact step.priv sound priv lawful
  · exact priv.steady (step.moves sound).1.steady id (step.sound sound).accounted fun _ _ _ => id
  · exact priv.steady (step.moves sound).1.steady id (step.sound sound).accounted fun _ _ _ => id

/-! ## Places -/

/-- Where a step leaves a frame that was at a place. A body that takes over moves the frame itself. -/
def Label.place (f : FrameId) (before : Option Int) : Label → Option Int
  | .op (.setIp k ip) => if k = f then some ip else before
  | .entered t _ _ => if t.frame = f then none else before
  | _ => before

def placeOf (f : FrameId) (ls : List Label) : Option Int := ls.foldl (Label.place f) none

theorem placeOf_concat (f : FrameId) (ls : List Label) (l : Label) :
    placeOf f (ls ++ [l]) = l.place f (placeOf f ls) := by
  rw [placeOf, List.foldl_append]
  rfl

/-- The body has been entered. -/
def hasBegun (past : List Incident) : Prop := ∃ throwing, .begun throwing ∈ past

theorem hasBegun_append {past more : List Incident} (calm : ∀ throwing, .begun throwing ∉ more) :
    hasBegun (past ++ more) ↔ hasBegun past := by
  constructor
  · rintro ⟨throwing, mem⟩
    rcases List.mem_append.mp mem with old | new
    · exact ⟨throwing, old⟩
    · exact absurd new (calm throwing)
  · rintro ⟨throwing, mem⟩
    exact ⟨throwing, List.mem_append_left more mem⟩

/-! ## Backings after a turn -/

namespace Backing

variable {b : Backing} {throwing : Bool} {s : GenState} {m n : Nat} {live : Option RecordId}

theorem compiled_of_begun (after : b.begun throwing = .compiled s n) : s ≠ .justStarted ∧ n = 0 := by
  cases b with
  | compiled t k =>
    cases after
    cases throwing <;> exact ⟨nofun, rfl⟩
  | interpreted _ => cases after

theorem compiled_of_paused (after : b.paused m = .compiled s n) : s = .running := by
  cases b with
  | compiled t k =>
    cases after
    rfl
  | interpreted _ => cases after

theorem compiled_of_closed (after : b.closed = .compiled s n) : s = .completed ∧ n = 0 := by
  cases b with
  | compiled t k =>
    cases after
    exact ⟨rfl, rfl⟩
  | interpreted _ => cases after

theorem interpreted_of_begun (after : b.begun throwing = .interpreted live) : b = .interpreted live := by
  cases b with
  | compiled t k => cases after
  | interpreted _ => exact after

theorem interpreted_of_paused (after : b.paused m = .interpreted live) : b = .interpreted live := by
  cases b with
  | compiled t k => cases after
  | interpreted _ => exact after

theorem interpreted_of_closed (after : b.closed = .interpreted live) : live = none := by
  cases b with
  | compiled t k => cases after
  | interpreted _ =>
    cases after
    rfl

end Backing

/-! ## Marked contexts -/

structure Config.Marked (c : Config ε) (g : GenId) (past : List Incident) (place : Option Int) : Prop where
  young : ∀ {n}, (c.world.generator g).backing = .compiled .justStarted n → ¬ hasBegun past
  paused : ∀ {s n}, (c.world.generator g).backing = .compiled s n → n ≠ 0 → s = .running
  position : ∀ {r}, (c.world.generator g).backing = .interpreted (some r) →
    ((c.world.record r).lastInstr = -1 ↔ place = some (-1) ∨ ¬ hasBegun past)
  going : ∀ {r}, (c.world.generator g).backing = .interpreted (some r) →
    (c.world.record r).state.isCompleted = false
  ready : (c.world.yieldPoint g).isSome → (c.world.generator g).body.isSome
  entered : (∃ t ∈ c.turns, t.context = g) → hasBegun past

theorem World.yieldPoint_congr {v w : World ε} {g : GenId}
    (backing : (v.generator g).backing = (w.generator g).backing)
    (yields : (v.generator g).yields = (w.generator g).yields)
    (state : ∀ r, (w.generator g).backing = .interpreted (some r) → (v.record r).state = (w.record r).state) :
    v.yieldPoint g = w.yieldPoint g := by
  unfold yieldPoint
  rw [backing, yields]
  cases kind : (w.generator g).backing with
  | compiled s n => rfl
  | interpreted live =>
    cases live with
    | none => rfl
    | some r => simp only [Option.any_some, state r kind]

namespace Config.Marked

variable {c d : Config ε} {g : GenId} {past past' : List Incident} {place place' : Option Int}

theorem of_status (marked : c.Marked g past place) (status : d.world.status g = c.world.status g)
    (state : ∀ r, (c.world.generator g).backing = .interpreted (some r) →
      (d.world.record r).state = (c.world.record r).state)
    (position : ∀ r, (c.world.generator g).backing = .interpreted (some r) →
      ((d.world.record r).lastInstr = -1 ↔ place' = some (-1) ∨ ¬ hasBegun past'))
    (turns : (∃ t ∈ d.turns, t.context = g) → ∃ t ∈ c.turns, t.context = g)
    (begun : hasBegun past' ↔ hasBegun past) : d.Marked g past' place' := by
  have backing : (d.world.generator g).backing = (c.world.generator g).backing := congrArg Status.backing status
  have body : (d.world.generator g).body = (c.world.generator g).body := congrArg Status.body status
  constructor
  case young =>
    intro n after
    rw [begun]
    exact marked.young (backing ▸ after)
  case paused =>
    intro s n after
    exact marked.paused (backing ▸ after)
  case position =>
    intro r after
    exact position r (backing ▸ after)
  case going =>
    intro r after
    rw [state r (backing ▸ after)]
    exact marked.going (backing ▸ after)
  case ready =>
    rw [World.yieldPoint_congr backing (congrArg Status.yields status) state, body]
    exact marked.ready
  case entered =>
    intro turn
    exact begun.mpr (marked.entered (turns turn))

/-- Nothing happens to the context or its record. -/
theorem keep {F : Footprint} {out rest : Multiset Handle} (marked : c.Marked g past place)
    (acc : Accounted c.world out) (acc' : Accounted d.world rest) (steady : Steady F c.world d.world)
    (status : d.world.status g = c.world.status g)
    (free : ∀ r, (c.world.generator g).live = some r → ¬ F.records r)
    (turns : (∃ t ∈ d.turns, t.context = g) → ∃ t ∈ c.turns, t.context = g)
    (begun : hasBegun past' ↔ hasBegun past) (still : (c.world.generator g).live.isSome → place' = place) :
    d.Marked g past' place' := by
  have backing : (d.world.generator g).backing = (c.world.generator g).backing := congrArg Status.backing status
  have live : ∀ {r}, (c.world.generator g).backing = .interpreted (some r) →
      (c.world.generator g).live = some r := by
    intro r before
    rw [Generator.live, before]
  have record : ∀ {r}, (c.world.generator g).backing = .interpreted (some r) →
      (d.world.record r).state = (c.world.record r).state ∧
        ((d.world.record r).lastInstr = -1 ↔ (c.world.record r).lastInstr = -1) := by
    intro r before
    have live' : (d.world.generator g).live = some r := by rw [Generator.live, backing, before]
    obtain ⟨x, found⟩ := Option.isSome_iff_exists.mp (acc.has_record (live before))
    exact steady.record_eq (free r (live before)) (c.world.records.lt_next found) (acc'.has_record live')
  refine marked.of_status status (fun r before => (record before).1) (fun r before => ?_) turns begun
  have same : place' = place := still (by rw [live before]; rfl)
  rw [(record before).2, marked.position before, same, begun]

theorem closed (backing : (d.world.generator g).backing = (c.world.generator g).backing.closed)
    (entered : (∃ t ∈ d.turns, t.context = g) → hasBegun past) : d.Marked g past place := by
  have gone : ∀ {r}, (d.world.generator g).backing ≠ .interpreted (some r) := by
    intro r after
    cases Backing.interpreted_of_closed (backing ▸ after)
  have rests : d.world.yieldPoint g = none := by
    rw [World.yieldPoint, backing]
    cases (c.world.generator g).backing <;> rfl
  constructor
  case young =>
    intro n after
    cases (Backing.compiled_of_closed (backing ▸ after)).1
  case paused =>
    intro s n after pos
    exact absurd (Backing.compiled_of_closed (backing ▸ after)).2 pos
  case position => exact fun after => absurd after gone
  case going => exact fun after => absurd after gone
  case ready =>
    intro waits
    rw [rests] at waits
    cases waits
  case entered => exact entered

theorem begun {throwing : Bool}
    (backing : (d.world.generator g).backing = (c.world.generator g).backing.begun throwing)
    (record : ∀ r, (c.world.generator g).backing = .interpreted (some r) →
      (d.world.record r).state = .executing ∧ (d.world.record r).lastInstr ≠ -1) (past : List Incident) :
    d.Marked g (past ++ [.begun throwing]) none := by
  have started : hasBegun (past ++ [.begun throwing]) := ⟨throwing, by simp⟩
  have executing : ∀ {r}, (d.world.generator g).backing = .interpreted (some r) →
      (d.world.record r).state = .executing ∧ (d.world.record r).lastInstr ≠ -1 := by
    intro r after
    exact record r (Backing.interpreted_of_begun (backing ▸ after))
  constructor
  case young =>
    intro n after
    exact absurd rfl (Backing.compiled_of_begun (backing ▸ after)).1
  case paused =>
    intro s n after pos
    exact absurd (Backing.compiled_of_begun (backing ▸ after)).2 pos
  case position =>
    intro r after
    refine ⟨fun start => absurd start (executing after).2, ?_⟩
    rintro (place | never)
    · cases place
    · exact absurd started never
  case going =>
    intro r after
    rw [(executing after).1]
    rfl
  case ready =>
    have none : d.world.yieldPoint g = none := by
      unfold World.yieldPoint
      cases after : (d.world.generator g).backing with
      | compiled s n => simp [(Backing.compiled_of_begun (backing ▸ after)).2]
      | interpreted live =>
        cases live with
        | none => rfl
        | some r => simp [(executing after).1]
    intro waits
    rw [none] at waits
    cases waits
  case entered => exact fun _ => started

theorem yielded {n : Nat} (marked : c.Marked g past place)
    (backing : (d.world.generator g).backing = (c.world.generator g).backing.paused n)
    (body : (d.world.generator g).body.isSome)
    (record : ∀ r, (c.world.generator g).backing = .interpreted (some r) →
      (d.world.record r).state = .suspended ∧
        ((d.world.record r).lastInstr = -1 ↔ (c.world.record r).lastInstr = -1))
    (turns : (∃ t ∈ d.turns, t.context = g) → ∃ t ∈ c.turns, t.context = g) :
    d.Marked g (past ++ [.yielded]) place := by
  have same : hasBegun (past ++ [.yielded]) ↔ hasBegun past := hasBegun_append (by simp)
  constructor
  case young =>
    intro m after
    cases Backing.compiled_of_paused (backing ▸ after)
  case paused => exact fun after _ => Backing.compiled_of_paused (backing ▸ after)
  case position =>
    intro r after
    have before := Backing.interpreted_of_paused (backing ▸ after)
    rw [(record r before).2, marked.position before, same]
  case going =>
    intro r after
    rw [(record r (Backing.interpreted_of_paused (backing ▸ after))).1]
    rfl
  case ready => exact fun _ => body
  case entered => exact fun turn => same.mpr (marked.entered (turns turn))

end Config.Marked

theorem World.record_setIp {w : World ε} {f : FrameId} {r : RecordId} (own : (w.frame f).record = some r)
    (has : w.Has (.record r)) (ip : Int) : (w.setIp f ip).record r = { w.record r with lastInstr := ip } := by
  obtain ⟨x, found⟩ := Option.isSome_iff_exists.mp has
  have after : (w.setIp f ip).records.get? r = some { x with lastInstr := ip } := by
    rw [setIp_of_record own, setLastInstr, modifyRecord, Store.get?_modify, if_pos rfl]
    exact congrArg (Option.map _) found
  rw [record_of_get? after, record_of_get? found]

/-! ## Steps -/

/-- The step hands control to the context's body. -/
def Label.Enters (g : GenId) : Label → Prop
  | .entered t _ _ => t.context = g
  | _ => False

namespace Step

variable {c d : Config ε} {l : Label} {g : GenId} {past : List Incident} {place : Option Int}

theorem turns_before (step : Step c l d) (other : ¬ l.Enters g)
    (turn : ∃ t ∈ d.turns, t.context = g) : ∃ t ∈ c.turns, t.context = g := by
  obtain ⟨t, mem, own⟩ := turn
  rw [step.turns_eq] at mem
  cases l with
  | entered u inj external =>
    rcases List.mem_cons.mp mem with rfl | old
    · exact absurd own other
    · exact ⟨t, old, own⟩
  | ended u ending result => exact ⟨t, List.mem_of_mem_tail mem, own⟩
  | strayed u ending result => exact ⟨t, List.mem_of_mem_tail mem, own⟩
  | _ => exact ⟨t, mem, own⟩

theorem setIp_marked {f : FrameId} {ip : Int} (sound : c.Sound) (priv : c.world.Private)
    (step : Step c (.op (.setIp f ip)) d) (tended : c.Tended f) (marked : c.Marked g past place)
    (before : c.world.Has (.generator g)) (after : d.world.Has (.generator g)) :
    d.Marked g past (if f = (c.world.generator g).frame then some ip else place) := by
  have status := step.status_eq sound (Op.not_contexts c.world (.setIp f ip) g) (World.lt_next_of_has before) after
  have turns := step.turns_before (g := g) id
  by_cases here : f = (c.world.generator g).frame ∧ (c.world.generator g).live.isSome
  · obtain ⟨rfl, live⟩ := here
    have started : hasBegun past := marked.entered (tended g rfl live)
    have record : ∀ r, (c.world.generator g).backing = .interpreted (some r) →
        d.world.record r = { c.world.record r with lastInstr := ip } := by
      intro r backing
      have live : (c.world.generator g).live = some r := by rw [Generator.live, backing]
      have moved : d.world = c.world.setIp (c.world.generator g).frame ip := by
        cases step
        rfl
      rw [moved]
      exact World.record_setIp (priv.own live) (sound.accounted.has_record live) ip
    refine marked.of_status status (fun r backing => by rw [record r backing]) (fun r backing => ?_) turns Iff.rfl
    rw [record r backing, if_pos rfl]
    simp [started]
  · refine marked.keep sound.accounted (step.sound sound).accounted (step.moves sound).1.steady status ?_ turns
      Iff.rfl ?_
    · rintro r live ⟨bound, -⟩
      exact here ⟨priv.only live bound, by rw [live]; rfl⟩
    · intro live
      exact if_neg fun same => here ⟨same, live⟩

theorem answered_marked {inj : Injection} {external : Option RecordId} {result : Resumption} (sound : c.Sound)
    (step : Step c (.answered g inj external result) d) (marked : c.Marked g past place) :
    d.Marked g (past ++ ((Label.answered g inj external result).incident g).toList) place := by
  have acc' := (step.sound sound).accounted
  have turns := step.turns_before (g := g) id
  have same : hasBegun (past ++ ((Label.answered g inj external result).incident g).toList) ↔ hasBegun past := by
    apply hasBegun_append
    intro throwing mem
    simp [Label.incident] at mem
  have entered := fun turn => same.mpr (marked.entered (turns turn))
  cases step.reply sound with
  | refused _ steady status =>
    exact marked.keep sound.accounted acc' steady status (fun _ _ => id) turns same fun _ => rfl
  | ignored _ steady status =>
    exact marked.keep sound.accounted acc' steady status (fun _ _ => id) turns same fun _ => rfl
  | finished _ status => exact .closed (congrArg Status.backing status) entered
  | stuck _ _ status =>
    exact .closed ((congrArg Status.backing status).trans (Backing.closed_begun _ _)) entered

theorem entered_marked {t : Turn} {inj : Injection} {external : Option RecordId} (sound : c.Sound)
    (priv : c.world.Private) (step : Step c (.entered t inj external) d) (past : List Incident) :
    d.Marked t.context (past ++ [.begun inj.isThrowing]) none := by
  obtain ⟨body, -, -, -, status⟩ := step.entered_status sound
  refine .begun (c := c) (congrArg Status.backing status) (fun r backing => ?_) past
  exact step.entered_record sound backing (priv.own (by rw [Generator.live, backing]))

theorem ended_marked {t : Turn} {ending : Ending} {result : Resumption} (sound : c.Sound)
    (step : Step c (.ended t ending result) d) (marked : c.Marked t.context past place) :
    d.Marked t.context (past ++ [if ending.isYield then .yielded else .finished]) place := by
  obtain ⟨-, -, -, status⟩ := step.ended_status sound
  have turns := step.turns_before (g := t.context) id
  cases yields : ending.isYield with
  | true =>
    cases ending with
    | yields o =>
      have body : (d.world.generator t.context).body = some t.body := congrArg Status.body status
      exact marked.yielded (congrArg Status.backing status) (by rw [body]; rfl)
        (fun r => step.ended_record sound rfl) turns
    | _ => cases yields
  | false =>
    have same : hasBegun (past ++ [.finished]) ↔ hasBegun past := hasBegun_append (by simp)
    have backing := (congrArg Status.backing status).trans (Status.backing_after _ _ yields)
    exact .closed backing fun turn => same.mpr (marked.entered (turns turn))

theorem marked (sound : c.Sound) (priv : c.world.Private) (step : Step c l d) (discreet : l.Discreet c)
    (marked : c.Marked g past place) (before : c.world.Has (.generator g)) (after : d.world.Has (.generator g)) :
    d.Marked g (past ++ (l.incident g).toList) (l.place (c.world.generator g).frame place) := by
  have given := World.lt_next_of_has before
  have bystander : ¬ (l.footprint c.world).contexts g →
      (∀ r, (c.world.generator g).live = some r → ¬ (l.footprint c.world).records r) → l.incident g = none →
      l.place (c.world.generator g).frame place = place → ¬ l.Enters g →
      d.Marked g (past ++ (l.incident g).toList) (l.place (c.world.generator g).frame place) := by
    intro other free calm still enters
    rw [calm, still, Option.toList_none, List.append_nil]
    exact marked.keep sound.accounted (step.sound sound).accounted (step.moves sound).1.steady
      (step.status_eq sound other given after) free (step.turns_before enters) Iff.rfl fun _ => rfl
  have lawfully : ∀ lawful : l.Lawful c, ∀ other : ¬ (l.footprint c.world).contexts g,
      ∀ r, (c.world.generator g).live = some r → ¬ (l.footprint c.world).records r :=
    fun lawful other r live => step.records_free sound priv lawful live other
  cases l with
  | op call =>
    have other := call.not_contexts c.world g
    cases call with
    | setIp f ip =>
      show d.Marked g (past ++ []) _
      rw [List.append_nil]
      exact step.setIp_marked sound priv discreet marked before after
    | _ => exact bystander other (lawfully discreet other) rfl rfl id
  | quiet => exact bystander id (fun _ _ => id) rfl rfl id
  | answered k inj external result =>
    by_cases own : k = g
    · subst own
      exact step.answered_marked sound marked
    · have other : ¬ g = k := fun same => own same.symm
      exact bystander other (lawfully discreet other) (by simp [Label.incident, own]) rfl id
  | entered t inj external =>
    obtain ⟨body, -, turn, -, -⟩ := step.entered_status sound
    have frame : t.frame = (c.world.generator t.context).frame := by rw [turn]
    by_cases own : t.context = g
    · subst own
      rw [Label.incident, if_pos rfl, Label.place, if_pos frame]
      exact step.entered_marked sound priv past
    · have other : ¬ g = t.context := fun same => own same.symm
      have elsewhere : t.frame ≠ (c.world.generator g).frame := by
        intro same
        exact own (priv.apart (step.has_entered sound).1 before (frame ▸ same))
      exact bystander other (lawfully discreet other) (by simp [Label.incident, own]) (if_neg elsewhere) own
  | ended t ending result =>
    by_cases own : t.context = g
    · subst own
      rw [Label.incident, if_pos rfl]
      exact step.ended_marked sound marked
    · have other : ¬ g = t.context := fun same => own same.symm
      exact bystander other (lawfully discreet other) (by simp [Label.incident, own]) rfl id
  | strayed t ending result => exact bystander id (fun _ _ => id) rfl rfl id

theorem born_marked (sound : c.Sound) (step : Step c l d) (discreet : l.Discreet c)
    (late : c.world.generators.next ≤ g) (after : d.world.Has (.generator g)) (place : Option Int) :
    d.Marked g [] place := by
  have never : ¬ hasBegun [] := by
    rintro ⟨throwing, mem⟩
    cases mem
  have lawful : l.Lawful c := by
    rcases step.newborn sound late after with ⟨_, _, _, _, rfl, -⟩ | ⟨_, _, _, rfl, -⟩
    · exact discreet
    · exact discreet
  have stage := step.born sound lawful late after
  have shows : d.world.Shows g 0 .fresh := stage.shows
  constructor
  case young => exact fun _ => never
  case paused =>
    intro s n backing pos
    cases shows with
    | compiled fresh =>
      rw [fresh] at backing
      cases backing
      exact absurd rfl pos
    | live interpreted =>
      rw [interpreted] at backing
      cases backing
  case position =>
    intro r backing
    refine ⟨fun _ => .inr never, fun _ => ?_⟩
    cases shows with
    | compiled fresh =>
      rw [fresh] at backing
      cases backing
    | live interpreted _ start =>
      rw [interpreted] at backing
      cases backing
      exact start.mpr rfl
  case going =>
    intro r backing
    cases shows with
    | compiled fresh =>
      rw [fresh] at backing
      cases backing
    | live interpreted state =>
      rw [interpreted] at backing
      cases backing
      rw [← Option.some.inj state]
      rfl
  case ready => exact fun _ => stage.ready rfl
  case entered =>
    intro turn
    cases stage.turn.mpr turn

end Step

/-! ## Runs -/

structure Config.Charted (c : Config ε) (ls : List Label) : Prop where
  sound : c.Sound
  priv : c.world.Private
  marked : ∀ g, c.world.Has (.generator g) → c.Marked g (history g ls) (placeOf (c.world.generator g).frame ls)
  unborn : ∀ g, c.world.generators.next ≤ g → history g ls = []

theorem Step.charted {c d : Config ε} {ls : List Label} {l : Label} (charted : c.Charted ls) (step : Step c l d)
    (discreet : l.Discreet c) : d.Charted (ls ++ [l]) where
  sound := step.sound charted.sound
  priv := step.priv_of_cases charted.sound charted.priv discreet.cases
  marked g after := by
    rw [history_concat, placeOf_concat]
    by_cases late : c.world.generators.next ≤ g
    · rw [charted.unborn g late, Label.incident_unborn charted.sound step late]
      exact step.born_marked charted.sound discreet late after _
    · obtain ⟨before, -, frame⟩ := step.keeps_context charted.sound (Nat.not_le.mp late) after
      rw [frame]
      exact step.marked charted.sound charted.priv discreet (charted.marked g before) before after
  unborn g late := by
    have early := (step.next_le charted.sound).trans late
    rw [history_concat, charted.unborn g early, Label.incident_unborn charted.sound step early]
    rfl

theorem Kept.charted {c : Config ε} {ls : List Label} {host : ε} (run : Kept discreet (Config.start host) ls c) :
    c.Charted ls := by
  induction run with
  | nil =>
    exact ⟨Config.start_sound host, (Config.start_lively host).priv, nofun, fun _ _ => rfl⟩
  | snoc _ step kept ih => exact step.charted ih kept

/-! ## What everybody can see -/

namespace Config.Marked

variable {c : Config ε} {g : GenId} {past : List Incident} {place : Option Int}

theorem isJustStarted_iff (marked : c.Marked g past place) (begun : hasBegun past) :
    c.world.isJustStarted g = true ↔ (c.world.generator g).live.isSome ∧ place = some (-1) := by
  cases backing : (c.world.generator g).backing with
  | compiled s n =>
    rw [World.isJustStarted, Generator.live, backing]
    have old : s ≠ .justStarted := by
      rintro rfl
      exact marked.young backing begun
    simp [old]
  | interpreted live =>
    cases live with
    | none => simp [World.isJustStarted, Generator.live, backing]
    | some r =>
      have live : (c.world.generator g).live = some r := by rw [Generator.live, backing]
      rw [World.isJustStarted_of_live live, decide_eq_true_iff, marked.position backing, live]
      simp [begun]

theorem stateOf_eq_iff (marked : c.Marked g past place) :
    c.world.stateOf g = .justStarted ↔ c.world.isJustStarted g = true := by
  unfold World.stateOf
  cases backing : (c.world.generator g).backing with
  | compiled s n => simp [World.isJustStarted, backing]
  | interpreted live =>
    cases live with
    | none => simp [World.isCompleted, World.isJustStarted, backing]
    | some r =>
      have going : c.world.isCompleted g = false := by
        simpa [World.isCompleted, backing] using marked.going backing
      cases started : c.world.isJustStarted g <;> simp [going]

theorem suspended (marked : c.Marked g past place) (waits : (c.world.yieldPoint g).isSome) :
    c.world.isExecuting g = false ∧ c.world.isCompleted g = false ∧
      ∃ body, (c.world.generator g).body = some body := by
  have body := Option.isSome_iff_exists.mp (marked.ready waits)
  unfold World.yieldPoint at waits
  cases backing : (c.world.generator g).backing with
  | compiled s n =>
    have pos : n ≠ 0 := by
      rintro rfl
      rw [backing] at waits
      cases waits
    cases marked.paused backing pos
    simp [World.isExecuting, World.isCompleted, backing, pos, body]
  | interpreted live =>
    cases live with
    | none =>
      rw [backing] at waits
      cases waits
    | some r =>
      have state : (c.world.record r).state = .suspended := by
        by_contra other
        simp [backing, other] at waits
      simp [World.isExecuting, World.isCompleted, backing, state, RecordState.isExecuting,
        RecordState.isCompleted, body]

end Config.Marked

/-! ## Requests -/

namespace Judged

variable {w : World ε} {g : GenId} {inj : Injection} {verdict : Verdict}

theorem of_begun (judged : Judged w g inj verdict) (idle : w.isExecuting g = false)
    (going : w.isCompleted g = false) (begun : w.isJustStarted g = false) {body : BodyId}
    (ready : (w.generator g).body = some body) : verdict = .enter body := by
  cases judged with
  | executing busy => rw [idle] at busy; cases busy
  | ignored _ completed => rw [going] at completed; cases completed
  | exhausted _ completed => rw [going] at completed; cases completed
  | valued _ _ fresh => rw [begun] at fresh; cases fresh
  | finished _ _ fresh => rw [begun] at fresh; cases fresh
  | bodiless _ _ _ none => rw [ready] at none; cases none
  | entered _ _ _ found =>
    rw [ready] at found
    cases found
    rfl

theorem of_fresh (judged : Judged w g inj verdict) (idle : w.isExecuting g = false)
    (going : w.isCompleted g = false) (fresh : w.isJustStarted g = true)
    (unfit : w.sendsValue inj = true ∨ inj.isClosing = true) :
    verdict = if inj.isClosing then .finish else .refuse (.nonNoneToJustStarted (w.generator g).kind) := by
  have misfit : ¬ (w.sendsValue inj = false ∧ inj.isClosing = false) := by
    rintro ⟨plain, calling⟩
    rw [plain, calling] at unfit
    simp at unfit
  cases judged with
  | executing busy => rw [idle] at busy; cases busy
  | ignored _ completed => rw [going] at completed; cases completed
  | exhausted _ completed => rw [going] at completed; cases completed
  | valued _ _ _ sends =>
    cases inj with
    | send o => rfl
    | _ => cases sends
  | finished _ _ _ closing => rw [closing]; rfl
  | bodiless _ _ fits => exact absurd (fits fresh) misfit
  | entered _ _ fits => exact absurd (fits fresh) misfit

end Judged

/-- A request is answered whatever the bodies do, or it hands control to the body. -/
theorem Config.Sound.resume_cases {c : Config ε} {g : GenId} {inj : Injection} {external : Option RecordId}
    {rest : Multiset Handle} (sound : c.Sound)
    (takes : c.owned = .generator g ::ₘ ((inj.offered external : Multiset Handle) + rest)) :
    (∃ result v, Reply c.world g inj v result ∧ ∀ program, c.world.resume program g inj external = (result, v)) ∨
    ∃ t d, Step c (.entered t inj external) d ∧ t.context = g ∧ ∀ program, c.world.resume program g inj external =
      (program.step t.body g inj.input d.world).2.finish t (program.step t.body g inj.input d.world).1 := by
  cases received : c.world.receive g inj external with
  | answered result v =>
    have reply := (Step.answered takes received).reply sound
    refine .inl ⟨_, _, reply, fun program => ?_⟩
    simp only [World.resume, World.attempt, received]
  | entered t v =>
    have step := Step.entered takes received
    obtain ⟨-, acc⟩ := sound.of_request takes
    obtain ⟨body, -, turn, -⟩ := World.receive_entered acc (Multiset.mem_cons_self _ _) sound.calm received
    refine .inr ⟨t, _, step, by rw [turn], fun program => ?_⟩
    simp only [World.resume, World.attempt, received, World.finish]

namespace Config

variable {c : Config ε} {g : GenId} {inj : Injection} {external : Option RecordId} {rest : Multiset Handle}

/-- A context that has begun and waits hands every request to its body, if its frame can be pushed. -/
theorem resume_of_begun {fs : List FrameId} {body : BodyId} (sound : c.Sound) (tracks : c.world.Tracks fs)
    (takes : c.owned = .generator g ::ₘ ((inj.offered external : Multiset Handle) + rest))
    (idle : c.world.isExecuting g = false) (going : c.world.isCompleted g = false)
    (begun : c.world.isJustStarted g = false) (ready : (c.world.generator g).body = some body) :
    (c.world.Refuses (c.world.generator g).frame ∧
      ∃ p, ∀ program, (c.world.resume program g inj external).1 = .panicked p) ∨
    (¬ c.world.Refuses (c.world.generator g).frame ∧
      ∃ v, ∀ program, c.world.resume program g inj external =
        (program.step body g inj.input v).2.finish ⟨g, (c.world.generator g).frame, body, inj.isClosing⟩
          (program.step body g inj.input v).1) := by
  have handed : ∀ {verdict}, Judged c.world g inj verdict → verdict = .enter body :=
    fun judged => judged.of_begun idle going begun ready
  rcases sound.resume_cases takes with ⟨result, v, reply, eq⟩ | ⟨t, d, step, rfl, eq⟩
  · refine .inl ?_
    cases reply with
    | refused judged => cases handed judged
    | ignored judged => cases handed judged
    | finished judged => cases handed judged
    | stuck _ linked => exact ⟨linked, _, fun program => by rw [eq]⟩
  · refine .inr ?_
    obtain ⟨taken, judged, turn, -, -⟩ := step.entered_status sound
    cases handed judged
    have free := (step.entered_tracks sound tracks).1
    rw [turn] at free
    refine ⟨free, d.world, fun program => ?_⟩
    rw [eq]
    have same : t.body = body := by rw [turn]
    rw [same, ← turn]

/-- A context that counts as not begun answers a value, and a request to close, without its body. -/
theorem resume_of_fresh (sound : c.Sound)
    (takes : c.owned = .generator g ::ₘ ((inj.offered external : Multiset Handle) + rest))
    (idle : c.world.isExecuting g = false) (going : c.world.isCompleted g = false)
    (fresh : c.world.isJustStarted g = true)
    (unfit : c.world.sendsValue inj = true ∨ inj.isClosing = true) :
    ∃ v, ∀ program, c.world.resume program g inj external =
      (if inj.isClosing then .done (.returned nothing)
        else .refused (.nonNoneToJustStarted (c.world.generator g).kind), v) := by
  have verdict : ∀ {verdict}, Judged c.world g inj verdict →
      verdict = if inj.isClosing then .finish else .refuse (.nonNoneToJustStarted (c.world.generator g).kind) :=
    fun judged => judged.of_fresh idle going fresh unfit
  rcases sound.resume_cases takes with ⟨result, v, reply, eq⟩ | ⟨t, d, step, rfl, -⟩
  · refine ⟨v, fun program => ?_⟩
    rw [eq]
    cases closing : inj.isClosing with
    | true =>
      simp only [closing, if_true] at verdict
      cases reply with
      | refused judged => cases verdict judged
      | ignored judged => rfl
      | finished judged => rfl
      | stuck judged => cases verdict judged
    | false =>
      simp only [closing, Bool.false_eq_true, if_false] at verdict
      cases reply with
      | refused judged => cases verdict judged; rfl
      | ignored judged => cases verdict judged
      | finished judged => cases verdict judged
      | stuck judged => cases verdict judged
  · obtain ⟨body, judged, -⟩ := step.entered_status sound
    have enters := verdict judged
    split at enters <;> cases enters

end Config

/-- A context whose body has been entered counts as just started only if it is interpreted, has not finished, and its
body has put the position back to the start since it last took over. As long as it is at a yield it then takes no value
and is closed behind the back of its body; otherwise it hands every request to its body, and an exception that tells it
to exit if it is to close. -/
theorem started_unless_rewound (host : ε) {ls : List Label} {c : Config ε}
    (run : Kept discreet (Config.start host) ls c) {g : GenId} (has : c.world.Has (.generator g))
    (entered : hasBegun (history g ls)) :
    (c.world.isJustStarted g = true ↔
      (c.world.generator g).live.isSome ∧ placeOf (c.world.generator g).frame ls = some (-1)) ∧
    (c.world.stateOf g = .justStarted ↔ c.world.isJustStarted g = true) ∧
    ((c.world.yieldPoint g).isSome → ∀ inj external rest,
      c.owned = .generator g ::ₘ (((inj : Injection).offered external : Multiset Handle) + rest) →
      (c.world.isJustStarted g = false →
        (c.world.Refuses (c.world.generator g).frame ∧
          ∃ p, ∀ program, (c.world.resume program g inj external).1 = .panicked p) ∨
        (¬ c.world.Refuses (c.world.generator g).frame ∧ ∃ body v, ∀ program,
          c.world.resume program g inj external =
            (program.step body g inj.input v).2.finish ⟨g, (c.world.generator g).frame, body, inj.isClosing⟩
              (program.step body g inj.input v).1)) ∧
      (c.world.isJustStarted g = true →
        (c.world.sendsValue inj = true → ∀ program,
          (c.world.resume program g inj external).1 =
            .refused (.nonNoneToJustStarted (c.world.generator g).kind)) ∧
        (inj.isClosing = true → ∃ v, ∀ program,
          c.world.resume program g inj external = (.done (.returned nothing), v)))) := by
  have charted := run.charted
  have sound := charted.sound
  have marked := charted.marked g has
  refine ⟨marked.isJustStarted_iff entered, marked.stateOf_eq_iff, fun waits inj external rest takes => ?_⟩
  obtain ⟨idle, going, body, ready⟩ := marked.suspended waits
  refine ⟨fun begun => ?_, fun fresh => ⟨fun sends program => ?_, fun closing => ?_⟩⟩
  · have tracks := run.run.tracks (Config.start_sound host) (Config.start_tracks host)
    rcases Config.resume_of_begun sound tracks takes idle going begun ready with refused | ⟨free, v, handed⟩
    · exact .inl refused
    · exact .inr ⟨free, body, v, handed⟩
  · obtain ⟨v, answer⟩ := Config.resume_of_fresh sound takes idle going fresh (.inl sends)
    have calling : inj.isClosing = false := by
      cases inj with
      | send o => rfl
      | _ => cases sends
    rw [answer, calling]
    rfl
  · obtain ⟨v, answer⟩ := Config.resume_of_fresh sound takes idle going fresh (.inr closing)
    rw [closing] at answer
    exact ⟨v, answer⟩

/-- A body puts its position before the start and yields. Its context has begun all the same, and a request to close
reaches the body. -/
theorem started_unless_rewound_before :
    ∃ (ls : List Label) (c : Config Unit), Kept discreet (Config.start ()) ls c ∧ hasBegun (history 0 ls) ∧
      placeOf (c.world.generator 0).frame ls = some (-7) ∧ c.world.isJustStarted 0 = false ∧
      c.world.stateOf 0 ≠ .justStarted ∧
      ∃ body v, ∀ program : Host Unit, c.world.resume program 0 .close none =
        (program.step body 0 (.thrown .generatorExit) v).2.finish ⟨0, (c.world.generator 0).frame, body, true⟩
          (program.step body 0 (.thrown .generatorExit) v).1 := by
  let waits (ls : List Label) (c : Config Unit) : Bool :=
    decide (c.world.Has (.generator 0)) && decide (.begun false ∈ history 0 ls) &&
      decide (placeOf (c.world.generator 0).frame ls = some (-7)) && (c.world.yieldPoint 0).isSome &&
      !(c.world.frame (c.world.generator 0).frame).isLinked &&
      decide (c.world.stack.current ≠ some (c.world.generator 0).frame) &&
      decide ((.generator 0 ::ₘ 0 : Multiset Handle) ≤ c.owned)
  obtain ⟨ls, c, run, holds⟩ := Config.exists_kept (p := waits)
    [.call (.newRecord { code := { module := "m", name := "f" } }), .call (.newInterpreted .generator 0 0),
      .call (.clone (.object nothing)), .ask 0 (.send nothing) none, .call (.setIp 0 (-7)),
      .stop (.yields nothing)]
    (by decide +kernel : (Config.keepAll? discreet (Config.start ()) _).any _ = true)
  simp only [waits, Bool.and_eq_true, Bool.not_eq_true', decide_eq_true_eq] at holds
  obtain ⟨⟨⟨⟨⟨⟨has, mem⟩, place⟩, waits⟩, unlinked⟩, apart⟩, enough⟩ := holds
  obtain ⟨rest, owned⟩ := Multiset.le_iff_exists_add.mp enough
  have takes : c.owned = .generator 0 ::ₘ ((Injection.close.offered none : Multiset Handle) + rest) := by
    rw [owned]
    simp [Injection.offered, Injection.held]
  obtain ⟨started, state, requests⟩ := started_unless_rewound () run has ⟨false, mem⟩
  have begun : c.world.isJustStarted 0 = false := by
    rw [← Bool.not_eq_true, started, place]
    simp
  have free : ¬ c.world.Refuses (c.world.generator 0).frame := by
    rintro (linked | top)
    · rw [unlinked] at linked
      cases linked
    · exact apart top
  refine ⟨ls, c, run, ⟨false, mem⟩, place, begun, ?_, ?_⟩
  · rw [ne_eq, state, begun]
    exact Bool.false_ne_true
  · rcases (requests waits .close none rest takes).1 begun with ⟨refused, -⟩ | ⟨-, handed⟩
    · exact absurd refused free
    · exact handed

/-- Every body puts its position back to the start and yields. -/
def Host.rewinding : Host ε where
  step := fun _ g _ w => (.yields nothing, w.setIp (w.generator g).frame (-1))
  build := fun _ _ ip w => (.error (.builder ip), w)

/-- A body is entered, puts its position back to the start and yields. Its context waits at a yield and counts as just
started: it takes no value, and is closed without a word to the body, which would have refused to exit. -/
theorem resume_starts_over :
    ∃ (before : List Label) (c : Config Unit), Run (Config.start ()) before c ∧
      (c.world.resume .rewinding 0 (.send nothing) none).1 = .done (.yielded nothing) ∧
      (c.world.resume .rewinding 0 (.send nothing) none).2.yieldPoint 0 = some 1 ∧
      (c.world.resume .rewinding 0 (.send nothing) none).2.isJustStarted 0 = true ∧
      (c.world.resume .rewinding 0 (.send nothing) none).2.stateOf 0 = .justStarted ∧
      ((c.world.resume .rewinding 0 (.send nothing) none).2.resume .rewinding 0 (.send 1) none).1 =
        .refused (.nonNoneToJustStarted .generator) ∧
      ((c.world.resume .rewinding 0 (.send nothing) none).2.resume .rewinding 0 .close none).1 =
        .done (.returned nothing) := by
  let rewinds (_ : List Label) (c : Config Unit) : Bool :=
    let once := c.world.resume .rewinding 0 (.send nothing) none
    decide (once.1 = .done (.yielded nothing)) && decide (once.2.yieldPoint 0 = some 1) &&
      once.2.isJustStarted 0 && decide (once.2.stateOf 0 = .justStarted) &&
      decide ((once.2.resume .rewinding 0 (.send 1) none).1 = .refused (.nonNoneToJustStarted .generator)) &&
      decide ((once.2.resume .rewinding 0 .close none).1 = .done (.returned nothing))
  obtain ⟨before, c, reached, holds⟩ := Config.exists_run (p := rewinds)
    [.call (.newRecord { code := { module := "m", name := "f" } }), .call (.newInterpreted .generator 0 0),
      .call (.newObject .int (.int 7))]
    (by decide +kernel : ((Config.start ()).playAll? _).any _ = true)
  simp only [rewinds, Bool.and_eq_true, decide_eq_true_eq] at holds
  obtain ⟨⟨⟨⟨⟨yields, waits⟩, fresh⟩, state⟩, refused⟩, closed⟩ := holds
  exact ⟨before, c, reached, yields, waits, fresh, state, refused, closed⟩

end Activation
