import Activation.Proofs.Program

/-! # Walks along the logical call chain

The links of the frames may form any graph, so the path that a walk follows may be endless.

* `World.path start i`: the frame at position `i` of the path, if the path is that long.
* `World.route start n`: the first `n` frames of the path.
* `shown visit fs s`: the state of a visitor after it has seen the frames `fs`.
* `World.EndsAfter start visit s n`: the path or the patience of the visitor ends with the frame number `n`.
* `World.traverse_eq_ok`, `World.traverse_eq_error`: what a walk visits, and what it returns.
* `World.snapshot_eq`: a snapshot is the path in reverse.
-/

namespace Activation
set_option autoImplicit false

variable {ε σ : Type}

/-! ## The path -/

namespace World

def path (w : World ε) (start : Option FrameId) : Nat → Option FrameId
  | 0 => start
  | i + 1 => (w.path start i).bind w.nextFrame

def route (w : World ε) (start : Option FrameId) (n : Nat) : List FrameId :=
  (List.range n).filterMap (w.path start)

variable {w : World ε} {start : Option FrameId} {f : FrameId}

theorem nextFrame_of_awaiter {a : FrameId} (awaited : (w.frame f).awaiter = some a) (alive : w.Has (.frame a)) :
    w.nextFrame f = some a := by
  have there : w.awaiter f = some a := by
    rw [awaiter, awaited]
    exact Option.filter_eq_some_iff.mpr ⟨rfl, alive⟩
  rw [nextFrame, there]
  rfl

theorem nextFrame_of_prev (free : ∀ a, (w.frame f).awaiter = some a → ¬ w.Has (.frame a)) :
    w.nextFrame f = (w.frame f).prev := by
  have none : w.awaiter f = none := by
    rw [awaiter, Option.filter_eq_none_iff]
    exact fun a awaited => free a awaited
  rw [nextFrame, none]
  rfl

theorem path_add (m n : Nat) : w.path start (m + n) = w.path (w.path start m) n := by
  induction n with
  | zero => rfl
  | succ n ih =>
    show (w.path start (m + n)).bind w.nextFrame = (w.path (w.path start m) n).bind w.nextFrame
    rw [ih]

theorem path_succ (i : Nat) : w.path (some f) (i + 1) = w.path (w.nextFrame f) i := by
  rw [Nat.add_comm, path_add]
  rfl

theorem path_none (i : Nat) : w.path none i = none := by
  induction i with
  | zero => rfl
  | succ i ih =>
    rw [path, ih]
    rfl

theorem path_eq_none_of_le {m n : Nat} (ended : w.path start m = none) (later : m ≤ n) : w.path start n = none := by
  obtain ⟨k, rfl⟩ := Nat.exists_eq_add_of_le later
  rw [path_add, ended, path_none]

theorem path_isSome_of_le {m n : Nat} (there : (w.path start n).isSome) (earlier : m ≤ n) :
    (w.path start m).isSome := by
  by_contra gone
  rw [path_eq_none_of_le (by simpa using gone) earlier] at there
  cases there

theorem mem_route {n : Nat} : f ∈ w.route start n ↔ ∃ i < n, w.path start i = some f := by
  rw [route, List.mem_filterMap]
  simp only [List.mem_range]

theorem route_add (m n : Nat) : w.route start (m + n) = w.route start m ++ w.route (w.path start m) n := by
  unfold route
  rw [List.range_add, List.filterMap_append, List.filterMap_map]
  congr 2
  funext i
  exact path_add m i

theorem route_succ (n : Nat) : w.route (some f) (n + 1) = f :: w.route (w.nextFrame f) n := by
  rw [Nat.add_comm, route_add]
  rfl

theorem route_none (n : Nat) : w.route none n = [] := by
  rw [route, List.filterMap_eq_nil_iff]
  exact fun i _ => path_none i

theorem route_of_ended {m n : Nat} (ended : w.path start m = none) (later : m ≤ n) :
    w.route start n = w.route start m := by
  obtain ⟨k, rfl⟩ := Nat.exists_eq_add_of_le later
  rw [route_add, ended, route_none, List.append_nil]

theorem length_route {n : Nat} (long : ∀ i < n, (w.path start i).isSome) : (w.route start n).length = n := by
  induction n generalizing start with
  | zero => rfl
  | succ n ih =>
    obtain ⟨f, rfl⟩ := Option.isSome_iff_exists.mp (long 0 (Nat.succ_pos n))
    have later : ∀ i < n, (w.path (w.nextFrame f) i).isSome := by
      intro i earlier
      rw [← path_succ]
      exact long (i + 1) (by omega)
    rw [route_succ, List.length_cons, ih later]

theorem getElem?_route (n i : Nat) : (w.route start n)[i]? = if i < n then w.path start i else none := by
  induction n generalizing start i with
  | zero => rfl
  | succ n ih =>
    cases start with
    | none => simp [route_none, path_none]
    | some f =>
      rw [route_succ]
      cases i with
      | zero => rfl
      | succ i =>
        rw [List.getElem?_cons_succ, ih, path_succ]
        simp only [Nat.add_lt_add_iff_right]

theorem take_route {k n : Nat} (enough : w.path start n = none ∨ k ≤ n) :
    (w.route start n).take k = w.route start k := by
  apply List.ext_getElem?
  intro i
  rw [List.getElem?_take, getElem?_route, getElem?_route]
  split
  · split
    · rfl
    · next late => exact (path_eq_none_of_le (enough.resolve_right (by omega)) (by omega)).symm
  · rfl

/-- A path that comes back to a frame goes on for ever. -/
theorem path_isSome_of_cycle {i j : Nat} (forward : i < j) (back : w.path start i = w.path start j)
    (there : (w.path start i).isSome) (n : Nat) : (w.path start n).isSome := by
  have round : ∀ k, w.path start (i + k * (j - i)) = w.path start i := by
    intro k
    induction k with
    | zero => rw [Nat.zero_mul, Nat.add_zero]
    | succ k ih =>
      have split : i + (k + 1) * (j - i) = i + k * (j - i) + (j - i) := by
        rw [Nat.add_mul, Nat.one_mul, Nat.add_assoc]
      have ahead : i + (j - i) = j := by omega
      rw [split, path_add, ih, ← path_add, ahead, back]
  have far : n ≤ i + n * (j - i) := by
    have := Nat.le_mul_of_pos_right n (show 0 < j - i by omega)
    omega
  exact path_isSome_of_le (by rw [round]; exact there) far

end World

/-! ## Visitors -/

/-- The visitor never fails. -/
def Willing (visit : FrameId → σ → Except WalkError Directive × σ) : Prop := ∀ f s, ∃ d, (visit f s).1 = .ok d

def shown (visit : FrameId → σ → Except WalkError Directive × σ) (fs : List FrameId) (s : σ) : σ :=
  fs.foldl (fun s f => (visit f s).2) s

namespace World

/-- A visitor that has gone on before stops at position `i`. -/
def StopsAt (w : World ε) (start : Option FrameId) (visit : FrameId → σ → Except WalkError Directive × σ) (s : σ)
    (i : Nat) : Prop :=
  ∃ f, w.path start i = some f ∧ (visit f (shown visit (w.route start i) s)).1 = .ok .stop

structure EndsAfter (w : World ε) (start : Option FrameId) (visit : FrameId → σ → Except WalkError Directive × σ)
    (s : σ) (n : Nat) : Prop where
  there : ∀ i < n, (w.path start i).isSome
  onward : ∀ i, i + 1 < n → ¬ w.StopsAt start visit s i
  last : w.path start n = none ∨ ∃ i, n = i + 1 ∧ w.StopsAt start visit s i

variable {w : World ε} {start : Option FrameId} {visit : FrameId → σ → Except WalkError Directive × σ} {s : σ}
  {f : FrameId}

theorem stopsAt_zero : w.StopsAt (some f) visit s 0 ↔ (visit f s).1 = .ok .stop := by
  constructor
  · rintro ⟨k, here, stops⟩
    cases here
    exact stops
  · exact fun stops => ⟨f, rfl, stops⟩

theorem stopsAt_succ (i : Nat) :
    w.StopsAt (some f) visit s (i + 1) ↔ w.StopsAt (w.nextFrame f) visit (visit f s).2 i := by
  unfold StopsAt
  rw [path_succ, route_succ]
  rfl

theorem endsAfter_zero : w.EndsAfter start visit s 0 ↔ start = none := by
  constructor
  · intro ends
    rcases ends.last with ended | ⟨i, later, -⟩
    · exact ended
    · omega
  · intro ended
    exact ⟨fun i earlier => absurd earlier (Nat.not_lt_zero i),
      fun i earlier => absurd earlier (Nat.not_lt_zero _), .inl ended⟩

theorem endsAfter_of_stop (stops : (visit f s).1 = .ok .stop) {n : Nat} :
    w.EndsAfter (some f) visit s (n + 1) ↔ n = 0 := by
  have here : w.StopsAt (some f) visit s 0 := stopsAt_zero.mpr stops
  constructor
  · intro ends
    by_contra later
    exact ends.onward 0 (by omega) here
  · rintro rfl
    refine ⟨fun i earlier => ?_, fun i earlier => ?_, .inr ⟨0, rfl, here⟩⟩
    · obtain rfl : i = 0 := by omega
      rfl
    · omega

theorem endsAfter_succ (goes : (visit f s).1 = .ok .onward) {n : Nat} :
    w.EndsAfter (some f) visit s (n + 1) ↔ w.EndsAfter (w.nextFrame f) visit (visit f s).2 n := by
  have not_here : ¬ w.StopsAt (some f) visit s 0 := by
    rw [stopsAt_zero, goes]
    nofun
  constructor
  · intro ends
    refine ⟨fun i earlier => ?_, fun i earlier => ?_, ?_⟩
    · rw [← path_succ]
      exact ends.there (i + 1) (by omega)
    · rw [← stopsAt_succ]
      exact ends.onward (i + 1) (by omega)
    · rcases ends.last with ended | ⟨i, position, stops⟩
      · exact .inl (path_succ (w := w) n ▸ ended)
      · cases i with
        | zero => exact absurd stops not_here
        | succ i => exact .inr ⟨i, by omega, (stopsAt_succ i).mp stops⟩
  · intro ends
    refine ⟨fun i earlier => ?_, fun i earlier => ?_, ?_⟩
    · cases i with
      | zero => rfl
      | succ i =>
        rw [path_succ]
        exact ends.there i (by omega)
    · cases i with
      | zero => exact not_here
      | succ i =>
        rw [stopsAt_succ]
        exact ends.onward i (by omega)
    · rcases ends.last with ended | ⟨i, position, stops⟩
      · exact .inl (by rw [path_succ]; exact ended)
      · exact .inr ⟨i + 1, by omega, (stopsAt_succ i).mpr stops⟩

/-! ## Walks -/

theorem traverse_onward (goes : (visit f s).1 = .ok .onward) (n visited : Nat) :
    w.traverse visit (n + 1) visited (some f) s =
      w.traverse visit n (visited + 1) (w.nextFrame f) (visit f s).2 := by
  rw [traverse]
  rcases shows : visit f s with ⟨answer, t⟩
  rw [shows] at goes
  cases goes
  rfl

theorem traverse_stop (stops : (visit f s).1 = .ok .stop) (n visited : Nat) :
    w.traverse visit (n + 1) visited (some f) s = (.ok (visited + 1), (visit f s).2) := by
  rw [traverse]
  rcases shows : visit f s with ⟨answer, t⟩
  rw [shows] at stops
  cases stops
  rfl

theorem traverse_eq_ok (willing : Willing visit) {n k : Nat} (ends : w.EndsAfter start visit s k) (within : k ≤ n)
    (visited : Nat) :
    w.traverse visit n visited start s = (.ok (visited + k), shown visit (w.route start k) s) := by
  induction k generalizing start s n visited with
  | zero =>
    obtain rfl := endsAfter_zero.mp ends
    cases n <;> rfl
  | succ k ih =>
    obtain ⟨f, rfl⟩ := Option.isSome_iff_exists.mp (ends.there 0 (Nat.succ_pos k))
    obtain ⟨n, rfl⟩ : ∃ m, n = m + 1 := ⟨n - 1, by omega⟩
    obtain ⟨answer, answers⟩ := willing f s
    cases answer with
    | stop =>
      obtain rfl := (endsAfter_of_stop answers).mp ends
      rw [traverse_stop answers]
      rfl
    | onward =>
      rw [traverse_onward answers, ih ((endsAfter_succ answers).mp ends) (by omega), route_succ,
        Nat.add_assoc, Nat.add_comm 1 k]
      rfl

theorem traverse_eq_error (willing : Willing visit) {n : Nat} (endless : ∀ k ≤ n, ¬ w.EndsAfter start visit s k)
    (visited : Nat) :
    w.traverse visit n visited start s = (.error (.depthExceeded w.maxDepth), shown visit (w.route start n) s) ∧
      (w.route start n).length = n := by
  induction n generalizing start s visited with
  | zero =>
    cases start with
    | none => exact absurd (endsAfter_zero.mpr rfl) (endless 0 (Nat.le_refl 0))
    | some f => exact ⟨rfl, rfl⟩
  | succ n ih =>
    cases start with
    | none => exact absurd (endsAfter_zero.mpr rfl) (endless 0 (Nat.zero_le _))
    | some f =>
      obtain ⟨answer, answers⟩ := willing f s
      cases answer with
      | stop => exact absurd ((endsAfter_of_stop answers).mpr rfl) (endless 1 (by omega))
      | onward =>
        have later : ∀ k ≤ n, ¬ w.EndsAfter (w.nextFrame f) visit (visit f s).2 k := by
          intro k earlier ends
          exact endless (k + 1) (by omega) ((endsAfter_succ answers).mpr ends)
        obtain ⟨result, long⟩ := ih later (visited + 1)
        rw [traverse_onward answers, result, route_succ, List.length_cons, long]
        exact ⟨rfl, rfl⟩

/-- A visitor that always goes on comes to an end with the path only. -/
theorem endsAfter_of_onward (goes : ∀ f s, (visit f s).1 = .ok .onward) {n : Nat} :
    w.EndsAfter start visit s n ↔ (∀ i < n, (w.path start i).isSome) ∧ w.path start n = none := by
  have never : ∀ i, ¬ w.StopsAt start visit s i := by
    rintro i ⟨f, -, stops⟩
    rw [goes] at stops
    cases stops
  constructor
  · intro ends
    rcases ends.last with ended | ⟨i, -, stops⟩
    · exact ⟨ends.there, ended⟩
    · exact absurd stops (never i)
  · rintro ⟨there, ended⟩
    exact ⟨there, fun i _ => never i, .inl ended⟩

/-- The number of frames of a path that ends. -/
theorem exists_length {n : Nat} (ended : w.path start n = none) :
    ∃ k ≤ n, (∀ i < k, (w.path start i).isSome) ∧ w.path start k = none := by
  induction n generalizing start with
  | zero => exact ⟨0, Nat.le_refl 0, fun i earlier => absurd earlier (Nat.not_lt_zero i), ended⟩
  | succ n ih =>
    cases start with
    | none => exact ⟨0, Nat.zero_le _, fun i earlier => absurd earlier (Nat.not_lt_zero i), rfl⟩
    | some f =>
      rw [path_succ] at ended
      obtain ⟨k, within, there, none⟩ := ih ended
      refine ⟨k + 1, by omega, fun i earlier => ?_, by rw [path_succ, none]⟩
      cases i with
      | zero => rfl
      | succ i =>
        rw [path_succ]
        exact there i (by omega)

/-- The first position where the visitor stops, if it is within the bound. -/
theorem walkFrom_of_stop (willing : Willing visit) {i : Nat} (stops : w.StopsAt start visit s i)
    (onward : ∀ j < i, ¬ w.StopsAt start visit s j) (within : i < w.maxDepth) :
    w.walkFrom start visit s = (.ok (i + 1), shown visit (w.route start (i + 1)) s) := by
  have ends : w.EndsAfter start visit s (i + 1) := by
    refine ⟨fun j earlier => ?_, fun j earlier => onward j (by omega), .inr ⟨i, rfl, stops⟩⟩
    obtain ⟨f, here, -⟩ := stops
    exact path_isSome_of_le (by rw [here]; rfl) (show j ≤ i by omega)
  rw [walkFrom, traverse_eq_ok willing ends within, Nat.zero_add]

/-- A visitor that does not stop within the bound. -/
theorem walkFrom_of_onward (willing : Willing visit) (onward : ∀ i < w.maxDepth, ¬ w.StopsAt start visit s i) :
    w.walkFrom start visit s =
      (if w.path start w.maxDepth = none then .ok (w.route start w.maxDepth).length
        else .error (.depthExceeded w.maxDepth), shown visit (w.route start w.maxDepth) s) := by
  unfold walkFrom
  split
  · next ended =>
    obtain ⟨k, within, there, none⟩ := exists_length ended
    have ends : w.EndsAfter start visit s k := ⟨there, fun i earlier => onward i (by omega), .inl none⟩
    rw [traverse_eq_ok willing ends within, route_of_ended none within, length_route there, Nat.zero_add]
  · next goes_on =>
    have endless : ∀ k ≤ w.maxDepth, ¬ w.EndsAfter start visit s k := by
      intro k within ends
      rcases ends.last with ended | ⟨i, rfl, stops⟩
      · exact goes_on (path_eq_none_of_le ended within)
      · exact onward i within stops
    rw [(traverse_eq_error willing endless 0).1]

/-! ## Snapshots -/

theorem shown_collect {α : Type} (g : FrameId → α) (fs : List FrameId) (seen : List α) :
    shown (collect g) fs seen = (fs.map g).reverse ++ seen := by
  induction fs generalizing seen with
  | nil => rfl
  | cons f fs ih =>
    show shown (collect g) fs (g f :: seen) = _
    rw [ih, List.map_cons, List.reverse_cons, List.append_assoc, List.singleton_append]

theorem walkFrom_collect {α : Type} (w : World ε) (start : Option FrameId) (g : FrameId → α) :
    w.walkFrom start (collect g) [] =
      (if w.path start w.maxDepth = none then .ok (w.route start w.maxDepth).length
        else .error (.depthExceeded w.maxDepth), ((w.route start w.maxDepth).map g).reverse) := by
  have onward : ∀ i < w.maxDepth, ¬ w.StopsAt start (collect g) [] i := by
    rintro i - ⟨f, -, stops⟩
    cases stops
  rw [walkFrom_of_onward (fun _ _ => ⟨.onward, rfl⟩) onward, shown_collect, List.append_nil]

theorem snapshot_eq (w : World ε) (detail : Detail) :
    (w.snapshot detail).1 =
      if w.path w.stack.current w.maxDepth = none then
        .ok ((w.route w.stack.current w.maxDepth).map (w.entry detail)).reverse
      else .error (.depthExceeded w.maxDepth) := by
  simp only [snapshot, walkFrom_collect]
  split <;> rfl

/-- Where a frame stands: where its record says, if it has one, and else where its own pointer does. -/
theorem lastInstr_elim (w : World ε) (f : FrameId) :
    w.lastInstr f = (w.frame f).record.elim (w.frame f).ip fun r => (w.record r).lastInstr := by
  unfold lastInstr
  cases (w.frame f).record with
  | none => rfl
  | some r => rfl

/-- A frame goes by the name of its record's code, if it has a record, and is at the line that its own code has for
the place where it stands. -/
theorem entry_eq (w : World ε) (detail : Detail) (f : FrameId) : w.entry detail f =
    { qualname := (w.frame f).record.elim (w.frame f).code.qualifiedName fun r => (w.record r).code.qualifiedName
      line := if detail = .names then none else (w.frame f).code.lineFor
        ((w.frame f).record.elim (w.frame f).ip fun r => (w.record r).lastInstr)
      record := if detail = .frames then (w.frame f).record else none } := by
  unfold entry resolve line
  rw [← lastInstr_elim]
  cases (w.frame f).record with
  | none => cases detail <;> rfl
  | some r => cases detail <;> rfl

end World

/-- An entry without what the detail leaves out. -/
def Detail.blank (detail : Detail) (e : StackEntry) : StackEntry :=
  { e with
    line := if detail.wantsLine then e.line else none
    record := if detail.wantsFrame then e.record else none }

theorem World.snapshot_eq_blank (w : World ε) (detail : Detail) :
    (w.snapshot detail).1 = (w.snapshot .frames).1.map (List.map detail.blank) := by
  have blanked : w.entry detail = detail.blank ∘ w.entry .frames := by
    funext f
    cases detail <;> rfl
  rw [snapshot_eq, snapshot_eq]
  split
  · rw [Except.map, List.map_reverse, List.map_map, blanked]
  · rfl

/-! ## What a walk reports -/

theorem walk_follows_path (w : World ε) (start : Option FrameId)
    (visit : FrameId → σ → Except WalkError Directive × σ) (willing : Willing visit) (s : σ) :
    -- The path goes from a frame to its awaiter while that lives, and else to its predecessor.
    (∀ i f, w.path start i = some f →
      (∀ a, (w.frame f).awaiter = some a → w.Has (.frame a) → w.path start (i + 1) = some a) ∧
      ((∀ a, (w.frame f).awaiter = some a → ¬ w.Has (.frame a)) → w.path start (i + 1) = (w.frame f).prev)) ∧
    -- The walk ends with the path or where the visitor stops it.
    (∀ n ≤ w.maxDepth, w.EndsAfter start visit s n →
      (w.route start n).length = n ∧ w.walkFrom start visit s = (.ok n, shown visit (w.route start n) s)) ∧
    -- Otherwise it ends at the bound.
    ((∀ n ≤ w.maxDepth, ¬ w.EndsAfter start visit s n) →
      (w.route start w.maxDepth).length = w.maxDepth ∧
      w.walkFrom start visit s =
        (.error (.depthExceeded w.maxDepth), shown visit (w.route start w.maxDepth) s)) ∧
    ((∀ f s, (visit f s).1 = .ok .onward) → ∀ i j, i < j → w.path start i = w.path start j →
      (w.path start i).isSome → (w.walkFrom start visit s).1 = .error (.depthExceeded w.maxDepth)) ∧
    -- A snapshot has the name and, as far as it is asked for, the line and the record of every frame.
    (∀ detail, (w.snapshot detail).1 =
      if w.path w.stack.current w.maxDepth = none then
        .ok ((w.route w.stack.current w.maxDepth).map fun f =>
          { qualname := (w.frame f).record.elim (w.frame f).code.qualifiedName fun r => (w.record r).code.qualifiedName
            line := if detail = .names then none else (w.frame f).code.lineFor
              ((w.frame f).record.elim (w.frame f).ip fun r => (w.record r).lastInstr)
            record := if detail = .frames then (w.frame f).record else none }).reverse
      else .error (.depthExceeded w.maxDepth)) ∧
    (∀ detail, (w.snapshot detail).1 = (w.snapshot .frames).1.map (List.map detail.blank)) := by
  have bounded : (∀ n ≤ w.maxDepth, ¬ w.EndsAfter start visit s n) →
      (w.route start w.maxDepth).length = w.maxDepth ∧
      w.walkFrom start visit s =
        (.error (.depthExceeded w.maxDepth), shown visit (w.route start w.maxDepth) s) := by
    intro endless
    exact (World.traverse_eq_error willing endless 0).symm
  refine ⟨?_, ?_, bounded, ?_, fun detail => ?_, w.snapshot_eq_blank⟩
  · intro i f here
    have next : w.path start (i + 1) = w.nextFrame f := by
      rw [World.path, here]
      rfl
    rw [next]
    exact ⟨fun a => World.nextFrame_of_awaiter, World.nextFrame_of_prev⟩
  · intro n within ends
    have result := World.traverse_eq_ok willing ends within 0
    rw [Nat.zero_add] at result
    exact ⟨World.length_route ends.there, result⟩
  · intro goes i j forward back there
    have endless : ∀ n ≤ w.maxDepth, ¬ w.EndsAfter start visit s n := by
      intro n _ ends
      have ended := ((World.endsAfter_of_onward goes).mp ends).2
      have goes_on := World.path_isSome_of_cycle forward back there n
      rw [ended] at goes_on
      cases goes_on
    rw [(bounded endless).2]
  · rw [w.snapshot_eq detail, funext (w.entry_eq detail)]

/-- Two frames that lead to each other, one as an awaiter and one as a predecessor. Both have moved: the outer one has a
record, of another code, and the inner one only its pointer. -/
def World.ring : World Unit :=
  { records := Store.empty.insert { code := ⟨"lib", "task", some "Task.run", 0, 7, []⟩, lastInstr := 5 }
    frames := (Store.empty.insert
        { code := ⟨"app", "outer", none, 0, 1, [⟨0, 1⟩, ⟨4, 3⟩]⟩, record := some 0, awaiter := some 1 }).insert
      { code := ⟨"app", "inner", none, 0, 5, [⟨0, 6⟩, ⟨2, 8⟩]⟩, ip := 2, prev := some 0 }
    stack := ⟨some 0, 1⟩
    maxDepth := 3
    host := () }

/-- The same frames, with the inner one on top of the outer one and nobody awaited. -/
def World.pile : World Unit := { World.ring.setFrameAwaiter 0 none with stack := ⟨some 1, 2⟩ }

theorem walk_follows_path_ring :
    Willing (World.collect id) ∧ World.ring.path (some 0) 2 = some 0 ∧
      (World.ring.walkFrom (some 0) (World.collect id) []).1 = .error (.depthExceeded 3) ∧
      (World.pile.snapshot .names).1 = .ok [⟨"lib:Task.run", none, none⟩, ⟨"app:!inner", none, none⟩] ∧
      (World.pile.snapshot .frames).1 = .ok [⟨"lib:Task.run", some 3, some 0⟩, ⟨"app:!inner", some 8, none⟩] := by
  have willing : Willing (World.collect (id : FrameId → FrameId)) := fun _ _ => ⟨.onward, rfl⟩
  obtain ⟨-, -, -, endless, -, -⟩ := walk_follows_path World.ring (some 0) (World.collect id) willing []
  obtain ⟨-, -, -, -, snapshots, -⟩ := walk_follows_path World.pile (some 1) (World.collect id) willing []
  exact ⟨willing, by decide, endless (fun _ _ => rfl) 0 2 (by decide) (by decide) (by decide),
    (snapshots .names).trans (by decide +kernel), (snapshots .frames).trans (by decide +kernel)⟩

end Activation
