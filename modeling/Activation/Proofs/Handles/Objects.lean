import Activation.Proofs.Handles.Steady

/-! # What becomes of objects

Along any moves an object keeps its type and its value, an immortal one stays, and a dead one does not come
back.

* `Ages w v died`: between `w` and `v` exactly the objects of `died` have gone, each of them once, and the
  destructors of their types were told in that order, at a count of zero.
* `Moves.ages`: every sequence of moves ages the world.
* `Moves.immortal`: an immortal object outlives every sequence of moves.
-/

namespace Activation
set_option autoImplicit false

variable {ε : Type}

/-- The same object later on. -/
structure Object.Ages (x y : Object) : Prop where
  type : y.type = x.type
  payload : y.payload = x.payload
  immortal : x.header.isImmortal = true → y.header.isImmortal = true

theorem Object.Ages.refl (x : Object) : x.Ages x := ⟨rfl, rfl, id⟩

theorem Object.Ages.trans {x y z : Object} (first : x.Ages y) (later : y.Ages z) : x.Ages z :=
  ⟨later.type.trans first.type, later.payload.trans first.payload, later.immortal ∘ first.immortal⟩

/-- What a destructor reports, if the type has one that does. -/
def Object.lastWords (x : Object) : Option Death :=
  if x.type.destructor = .reports then some ⟨x.type.name, x.payload, 0⟩ else none

/-- Between the two worlds the objects of `died` have gone, each as it last was, in this order. -/
structure Ages (w v : World ε) (died : List (ObjId × Object)) : Prop where
  objects : w.objects.Evolves (fun _ => Object.Ages) (fun _ _ => True) v.objects
  gone : ∀ o, o ∈ died.map Prod.fst ↔
    (w.Has (.object o) ∨ w.objects.next ≤ o) ∧ o < v.objects.next ∧ ¬ v.Has (.object o)
  once : (died.map Prod.fst).Nodup
  last : ∀ p ∈ died, p.2.header.isImmortal = false ∧ ∀ x, w.objects.get? p.1 = some x → x.Ages p.2
  told : v.deaths.toList = w.deaths.toList ++ died.filterMap fun p => p.2.lastWords

theorem World.has_object {w : World ε} {o : ObjId} :
    w.Has (.object o) ↔ ∃ x, w.objects.get? o = some x := Option.isSome_iff_exists

theorem World.not_has_object {w : World ε} {o : ObjId} :
    ¬ w.Has (.object o) ↔ w.objects.get? o = none := by
  simp [World.Has]

namespace Ages

variable {w v u : World ε} {died more : List (ObjId × Object)}

theorem of_kept (objects : w.objects.Evolves (fun _ => Object.Ages) (fun _ _ => True) v.objects)
    (deaths : v.deaths = w.deaths)
    (same : ∀ o, w.Has (.object o) ∨ w.objects.next ≤ o ∧ o < v.objects.next → v.Has (.object o)) :
    Ages w v [] where
  objects := objects
  gone o := by
    simp only [List.map_nil, List.not_mem_nil, false_iff, not_and, not_not]
    rintro (has | late) below
    · exact same o (.inl has)
    · exact same o (.inr ⟨late, below⟩)
  once := by simp
  last p dead := by simp at dead
  told := by simp [deaths]

theorem of_eq (objects : v.objects = w.objects) (deaths : v.deaths = w.deaths) : Ages w v [] := by
  refine of_kept (objects ▸ .refl fun _ => Object.Ages.refl) deaths fun o before => ?_
  simp only [World.Has, objects] at before ⊢
  rcases before with has | ⟨late, below⟩
  · exact has
  · exact absurd late (Nat.not_le.mpr below)

theorem refl (w : World ε) : Ages w w [] := of_eq rfl rfl

theorem origin (aged : Ages w v died) {o : ObjId} (has : v.Has (.object o)) :
    w.Has (.object o) ∨ w.objects.next ≤ o := by
  obtain ⟨y, found⟩ := World.has_object.mp has
  exact (aged.objects.origin o y found).imp (fun ⟨x, there, _⟩ => World.has_object.mpr ⟨x, there⟩) And.left

/-- What has gone does not come back. -/
theorem not_has (aged : Ages w v died) {o : ObjId} (given : o < w.objects.next) (dead : ¬ w.Has (.object o)) :
    ¬ v.Has (.object o) := by
  intro has
  rcases aged.origin has with before | late
  · exact dead before
  · exact absurd late (Nat.not_le.mpr given)

theorem trans (first : Ages w v died) (later : Ages v u more) : Ages w u (died ++ more) where
  objects := first.objects.trans (fun _ _ _ _ => Object.Ages.trans) (fun _ _ _ _ _ => trivial) later.objects
  gone o := by
    rw [List.map_append, List.mem_append, first.gone o, later.gone o]
    constructor
    · rintro (⟨before, below, dead⟩ | ⟨before, below, dead⟩)
      · exact ⟨before, below.trans_le later.objects.next_le, later.not_has below dead⟩
      · refine ⟨?_, below, dead⟩
        rcases before with has | late
        · exact first.origin has
        · exact .inr (first.objects.next_le.trans late)
    · rintro ⟨before, below, dead⟩
      -- it went in the first half, unless it was there in between or is younger
      by_cases has : v.Has (.object o)
      · exact .inr ⟨.inl has, below, dead⟩
      · by_cases given : o < v.objects.next
        · exact .inl ⟨before, given, has⟩
        · exact .inr ⟨.inr (Nat.not_lt.mp given), below, dead⟩
  once := by
    rw [List.map_append, List.nodup_append]
    refine ⟨first.once, later.once, ?_⟩
    rintro o early _ listed rfl
    obtain ⟨-, below, dead⟩ := (first.gone o).mp early
    obtain ⟨has | late, -, -⟩ := (later.gone o).mp listed
    · exact dead has
    · exact absurd late (Nat.not_le.mpr below)
  last p listed := by
    rcases List.mem_append.mp listed with listed | listed
    · exact first.last p listed
    · refine ⟨(later.last p listed).1, fun x was => ?_⟩
      have below : p.1 < v.objects.next := (w.objects.lt_next was).trans_le first.objects.next_le
      obtain ⟨has | late, -, -⟩ := (later.gone p.1).mp (List.mem_map_of_mem listed)
      · obtain ⟨y, found⟩ := World.has_object.mp has
        obtain ⟨z, between, older⟩ := first.objects.old (w.objects.lt_next was) found
        rw [was] at between
        cases between
        exact older.trans ((later.last p listed).2 y found)
      · exact absurd late (Nat.not_le.mpr below)
  told := by rw [later.told, first.told, List.filterMap_append, List.append_assoc]

theorem immortal (aged : Ages w v died) {o : ObjId} (immortal : w.Immortal o) : v.Immortal o := by
  obtain ⟨x, there, marked⟩ := immortal
  have below : o < v.objects.next := (w.objects.lt_next there).trans_le aged.objects.next_le
  cases found : v.objects.get? o with
  | some y =>
    obtain ⟨z, same', older⟩ := aged.objects.old (w.objects.lt_next there) found
    rw [there] at same'
    cases same'
    exact ⟨y, found, older.immortal marked⟩
  | none =>
    -- it would be among the dead, who are all mortal
    have gone := (aged.gone o).mpr ⟨.inl (World.has_object.mpr ⟨x, there⟩), below, World.not_has_object.mpr found⟩
    obtain ⟨p, member, rfl⟩ := List.mem_map.mp gone
    obtain ⟨mortal, same⟩ := aged.last p member
    rw [(same x there).immortal marked] at mortal
    cases mortal

/-! ## One change of the store -/

theorem of_modify {o : ObjId} {f : Object → Object} (objects : v.objects = w.objects.modify o f)
    (deaths : v.deaths = w.deaths) (kept : ∀ x, w.objects.get? o = some x → x.Ages (f x)) :
    Ages w v [] := by
  refine of_kept (objects ▸ .modify (fun _ => Object.Ages.refl) o f kept) deaths fun p before => ?_
  simp only [World.Has, objects, Store.get?_modify, Store.next_modify] at before ⊢
  rcases before with has | ⟨late, below⟩
  · split
    · simpa using has
    · exact has
  · exact absurd late (Nat.not_le.mpr below)

theorem of_insert {x : Object} (objects : v.objects = w.objects.insert x) (deaths : v.deaths = w.deaths) :
    Ages w v [] := by
  refine of_kept (objects ▸ .insert (fun _ => Object.Ages.refl) x trivial) deaths fun p before => ?_
  simp only [World.Has, objects, Store.get?_insert, Store.next_insert] at before ⊢
  rcases before with has | ⟨late, below⟩
  · split
    · rfl
    · exact has
  · rw [if_pos (Nat.le_antisymm (Nat.lt_succ_iff.mp below) late)]
    rfl

theorem of_erase {o : ObjId} {x : Object} (objects : v.objects = w.objects.erase o)
    (found : w.objects.get? o = some x) (mortal : x.header.isImmortal = false)
    (told : v.deaths.toList = w.deaths.toList ++ x.lastWords.toList) : Ages w v [(o, x)] where
  objects := objects ▸ .erase (fun _ => Object.Ages.refl) o
  gone p := by
    simp only [List.map_cons, List.map_nil, List.mem_singleton, World.Has, objects, Store.get?_erase,
      Store.next_erase]
    constructor
    · rintro rfl
      exact ⟨.inl (by simp [found]), w.objects.lt_next found, by simp⟩
    · rintro ⟨before, below, dead⟩
      by_contra other
      rw [if_neg (Ne.symm other)] at dead
      rcases before with has | late
      · exact dead has
      · exact absurd late (Nat.not_le.mpr below)
  once := by simp
  last p listed := by
    cases List.mem_singleton.mp listed
    refine ⟨mortal, fun y there => ?_⟩
    rw [found] at there
    cases there
    exact .refl x
  told := by
    rw [told]
    cases words : x.lastWords <;> simp [words]

end Ages

/-! ## Moves -/

namespace World

@[simp] theorem deaths_traceCount (w : World ε) (m : String) (c : Count) :
    (w.traceCount m c).deaths = w.deaths := by
  unfold traceCount; split <;> rfl

@[simp] theorem deaths_noteRelease (w : World ε) (h : Header) : (w.noteRelease h).deaths = w.deaths := by
  unfold noteRelease; rw [deaths_traceCount]

theorem deaths_noteDeath (w : World ε) (x : Object) (h : Header) (zero : h.count.val = 0) :
    (w.noteDeath x h).deaths.toList = w.deaths.toList ++ x.lastWords.toList := by
  unfold noteDeath Object.lastWords
  split <;> simp [zero]

theorem ages_retain (w : World ε) (o : ObjId) : Ages w (w.retain o) [] := by
  unfold World.retain
  split
  · exact .refl w
  · next k stored =>
    obtain ⟨x, found, retained⟩ := Option.bind_eq_some_iff.mp stored
    refine .of_modify (o := o) (f := fun x => { x with header := k }) ?_ ?_ fun y there => ?_
    · simp [World.setHeader, World.modifyObject, World.noteRetain]
    · simp [World.setHeader, World.modifyObject, World.noteRetain]
    · rw [found] at there
      cases there
      exact ⟨rfl, rfl, fun immortal => Header.isImmortal_of_retain immortal retained⟩

theorem ages_panic (w : World ε) (p : Panic) : Ages w (w.panic p) [] := by
  unfold World.panic
  split <;> exact .of_eq rfl rfl

theorem ages_sink (w : World ε) (n : Int) : Ages w (w.sink n) [] := by
  unfold World.sink
  split <;> exact .of_eq rfl rfl

theorem ages_setHeader {w : World ε} {o : ObjId} {x : Object} (next : Header)
    (found : w.objects.get? o = some x) (counted : x.header.release ≠ .skipped) :
    Ages w ((w.noteRelease next).setHeader o next) [] := by
  refine .of_modify (o := o) (f := fun x => { x with header := next }) ?_ ?_ fun y there => ?_
  · simp [World.setHeader, World.modifyObject]
  · simp [World.setHeader, World.modifyObject]
  · rw [found] at there
    cases there
    exact ⟨rfl, rfl, fun immortal => absurd (Header.release_of_immortal immortal) counted⟩

theorem ages_giveBackObject (w : World ε) (o : ObjId) : ∃ died, Ages w (w.giveBackObject o).1 died := by
  unfold World.giveBackObject
  split
  · exact ⟨[], .refl w⟩
  next x found =>
  split
  · exact ⟨[], .refl w⟩
  · exact ⟨[], ages_panic w _⟩
  · next next released =>
    exact ⟨_, (ages_setHeader next found (by simp [released])).trans (ages_sink _ _)⟩
  · next next released => exact ⟨[], ages_setHeader next found (by simp [released])⟩
  · next next released =>
    unfold World.bury
    split
    · exact ⟨_, (ages_setHeader next found (by simp [released])).trans (ages_panic _ _)⟩
    · obtain ⟨mortal, zero⟩ := Header.of_release_dead released
      refine ⟨[(o, x)], .of_erase ?_ found mortal ?_⟩
      · simp [World.eraseObject]
      · simp [World.eraseObject, deaths_noteDeath _ x next zero]

theorem ages_giveBack (w : World ε) (h : Handle) : ∃ died, Ages w (w.giveBack h).1 died := by
  cases h with
  | object o => exact ages_giveBackObject w o
  | record r => exact ⟨[], .of_eq rfl rfl⟩
  | frame f => exact ⟨[], .of_eq rfl rfl⟩
  | below f => exact ⟨[], .of_eq rfl rfl⟩
  | generator g => exact ⟨[], .of_eq rfl rfl⟩

theorem ages_hold (w : World ε) (h : Handle) : Ages w (w.hold h) [] := by
  cases h with
  | object o => exact ages_retain w o
  | record r => exact .of_eq rfl rfl
  | frame f => exact .of_eq rfl rfl
  | below f => exact .of_eq rfl rfl
  | generator g => exact .of_eq rfl rfl

end World

theorem Move.ages {F : Footprint} {w v : World ε} {out rest : Multiset Handle}
    (move : Move F w out v rest) : ∃ died, Ages w v died := by
  cases move with
  | giveBack h => exact w.ages_giveBack h
  | quiet same => exact ⟨[], .of_eq same.objects same.deaths⟩
  | hold _ _ => exact ⟨[], w.ages_hold _⟩
  | addObject born => exact ⟨[], .of_insert rfl rfl⟩
  | markImmortal o _ =>
    exact ⟨[], .of_modify rfl rfl fun x _ => ⟨rfl, rfl, fun _ => Header.isImmortal_immortal⟩⟩
  | _ => exact ⟨[], .of_eq rfl rfl⟩

namespace Moves

variable {F : Footprint} {w v : World ε} {out rest : Multiset Handle}

theorem ages (moves : Moves F w out v rest) : ∃ died, Ages w v died := by
  induction moves with
  | refl => exact ⟨[], .refl w⟩
  | tail _ last ih =>
    obtain ⟨died, before⟩ := ih
    obtain ⟨more, after⟩ := last.ages
    exact ⟨died ++ more, before.trans after⟩

theorem immortal (moves : Moves F w out v rest) {o : ObjId} (there : w.Immortal o) : v.Immortal o := by
  obtain ⟨died, aged⟩ := moves.ages
  exact aged.immortal there

end Moves

end Activation
