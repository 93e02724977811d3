import Activation.Code

/-! # Which entry decides about a line

Line entries are given in any order and looked up in the order of their offsets. What a lookup finds can be said
without sorting.

* `Decides entries offset e`: of the entries at or before the offset, `e` has the largest start, and is the last one
  with that start.
* `startingAt_withLines`: sorting keeps the order of entries with equal starts.
* `takeWhile_withLines`: in the sorted table the entries at or before an offset stand in front of all others.
* `lineFor_withLines`: what is found for any instruction, and which orders of the entries make no difference to it.
-/

namespace Activation
set_option autoImplicit false

variable {entries others : List LineEntry} {offset start : Nat} {d e : LineEntry}

def Decides (entries : List LineEntry) (offset : Nat) (e : LineEntry) : Prop :=
  e.start ≤ offset ∧
    ∃ before after, entries = before ++ e :: after ∧
      (∀ d ∈ before, d.start ≤ offset → d.start ≤ e.start) ∧
      (∀ d ∈ after, d.start ≤ offset → d.start < e.start)

def startingAt (entries : List LineEntry) (start : Nat) : List LineEntry := entries.filter fun e => e.start = start

theorem mem_startingAt : e ∈ startingAt entries start ↔ e ∈ entries ∧ e.start = start := by
  rw [startingAt, List.mem_filter, decide_eq_true_iff]

theorem startingAt_append : startingAt (entries ++ others) start = startingAt entries start ++ startingAt others start :=
  List.filter_append ..

theorem startingAt_cons_self : startingAt (e :: entries) e.start = e :: startingAt entries e.start :=
  List.filter_cons_of_pos (decide_eq_true rfl)

theorem mem_of_startingAt (same : ∀ start, startingAt others start = startingAt entries start) (mem : d ∈ others) :
    d ∈ entries := by
  have there : d ∈ startingAt entries d.start := by
    rw [← same]
    exact mem_startingAt.mpr ⟨mem, rfl⟩
  exact (mem_startingAt.mp there).1

/-! ## The deciding entry -/

namespace Decides

theorem mem (decides : Decides entries offset e) : e ∈ entries := by
  obtain ⟨-, before, after, rfl, -, -⟩ := decides
  exact List.mem_append_right before List.mem_cons_self

theorem largest (decides : Decides entries offset e) (mem : d ∈ entries) (within : d.start ≤ offset) :
    d.start ≤ e.start := by
  obtain ⟨-, before, after, rfl, front, back⟩ := decides
  rcases List.mem_append.mp mem with earlier | later
  · exact front d earlier within
  · rcases List.mem_cons.mp later with rfl | later
    · exact Nat.le_refl _
    · exact Nat.le_of_lt (back d later within)

theorem last (decides : Decides entries offset e) : (startingAt entries e.start).getLast? = some e := by
  obtain ⟨reached, before, after, rfl, -, back⟩ := decides
  have rest : startingAt after e.start = [] := by
    rw [startingAt, List.filter_eq_nil_iff]
    intro d mem same
    have same : d.start = e.start := of_decide_eq_true same
    have lower := back d mem (by omega)
    omega
  rw [startingAt_append, startingAt_cons_self, rest, List.getLast?_concat]

theorem of_last (reached : e.start ≤ offset) (largest : ∀ d ∈ entries, d.start ≤ offset → d.start ≤ e.start)
    (last : (startingAt entries e.start).getLast? = some e) : Decides entries offset e := by
  obtain ⟨front, eq⟩ := List.getLast?_eq_some_iff.mp last
  obtain ⟨before, tail, rfl, -, here⟩ := List.filter_eq_append_iff.mp eq
  obtain ⟨between, after, rfl, -, -, rest⟩ := List.filter_eq_cons_iff.mp here
  refine ⟨reached, before ++ between, after, (List.append_assoc ..).symm, fun d mem within => ?_,
    fun d mem within => ?_⟩
  · refine largest d ?_ within
    rw [← List.append_assoc]
    exact List.mem_append_left _ mem
  · have below := largest d (by simp [mem]) within
    have other : d.start ≠ e.start := by simpa using List.filter_eq_nil_iff.mp rest d mem
    omega

theorem unique (decides : Decides entries offset e) (also : Decides entries offset d) : e = d := by
  have le : e.start ≤ d.start := also.largest decides.mem decides.1
  have ge : d.start ≤ e.start := decides.largest also.mem also.1
  have last := also.last
  rw [Nat.le_antisymm ge le, decides.last] at last
  exact Option.some.inj last

/-- Only the entries with one start need to keep their order. -/
theorem reorder (decides : Decides entries offset e)
    (same : ∀ start, startingAt others start = startingAt entries start) : Decides others offset e := by
  refine of_last decides.1 (fun d mem within => ?_) ?_
  · exact decides.largest (mem_of_startingAt same mem) within
  · rw [same, decides.last]

end Decides

/-! ## The sorted table -/

namespace Code

theorem start_trans (a b d : LineEntry) (ab : decide (a.start ≤ b.start) = true)
    (bd : decide (b.start ≤ d.start) = true) : decide (a.start ≤ d.start) = true :=
  decide_eq_true (Nat.le_trans (of_decide_eq_true ab) (of_decide_eq_true bd))

theorem start_total (a b : LineEntry) : (decide (a.start ≤ b.start) || decide (b.start ≤ a.start)) = true := by
  rw [Bool.or_eq_true, decide_eq_true_iff, decide_eq_true_iff]
  exact Nat.le_total a.start b.start

variable (c : Code) (entries)

theorem sorted_withLines : (c.withLines entries).lines.Pairwise fun a b => a.start ≤ b.start :=
  (List.pairwise_mergeSort start_trans start_total entries).imp of_decide_eq_true

theorem mem_withLines : e ∈ (c.withLines entries).lines ↔ e ∈ entries := List.mem_mergeSort

/-- The entries with one start are a sorted part of the list, and the sort is stable. -/
theorem startingAt_withLines (start : Nat) :
    startingAt (c.withLines entries).lines start = startingAt entries start := by
  have sorted : (startingAt entries start).Pairwise fun a b => decide (a.start ≤ b.start) = true := by
    rw [List.pairwise_iff_forall_sublist]
    intro a b pair
    have first := (mem_startingAt.mp (pair.subset List.mem_cons_self)).2
    have second := (mem_startingAt.mp (pair.subset (List.mem_cons_of_mem a List.mem_cons_self))).2
    exact decide_eq_true (Nat.le_of_eq (first.trans second.symm))
  have kept : (startingAt entries start).Sublist (c.withLines entries).lines :=
    List.sublist_mergeSort start_trans start_total sorted List.filter_sublist
  have inside : (startingAt entries start).Sublist (startingAt (c.withLines entries).lines start) := by
    have filtered := kept.filter fun e => decide (e.start = start)
    simpa only [startingAt, List.filter_filter, Bool.and_self] using filtered
  have as_many : (startingAt (c.withLines entries).lines start).length = (startingAt entries start).length :=
    ((List.mergeSort_perm entries _).filter _).length_eq
  exact (inside.eq_of_length as_many.symm).symm

theorem takeWhile_withLines (offset : Nat) :
    (c.withLines entries).lines.takeWhile (fun e => e.start ≤ offset) =
      (c.withLines entries).lines.filter fun e => e.start ≤ offset := by
  have sorted := c.sorted_withLines entries
  generalize (c.withLines entries).lines = lines at sorted ⊢
  induction lines with
  | nil => rfl
  | cons a lines ih =>
    obtain ⟨first, sorted⟩ := List.pairwise_cons.mp sorted
    by_cases within : a.start ≤ offset
    · rw [List.takeWhile_cons_of_pos (by simp [within]), List.filter_cons_of_pos (by simp [within]), ih sorted]
    · have beyond : ∀ b ∈ a :: lines, ¬ decide (b.start ≤ offset) = true := by
        intro b mem
        rw [decide_eq_true_iff]
        rcases List.mem_cons.mp mem with rfl | later
        · exact within
        · have := first b later
          omega
      rw [List.takeWhile_cons_of_neg (by simp [within]), List.filter_eq_nil_iff.mpr beyond]

/-- The last entry of the table at or before an offset decides about the offset. -/
theorem decides_of_getLast? {offset : Nat} {e : LineEntry}
    (last : ((c.withLines entries).lines.takeWhile fun e => e.start ≤ offset).getLast? = some e) :
    Decides entries offset e := by
  rw [takeWhile_withLines] at last
  obtain ⟨front, eq⟩ := List.getLast?_eq_some_iff.mp last
  have sorted : (front ++ [e]).Pairwise fun a b => a.start ≤ b.start := eq ▸ (c.sorted_withLines entries).filter _
  have reached : e.start ≤ offset := by
    have mem : e ∈ (c.withLines entries).lines.filter fun e => e.start ≤ offset := by simp [eq]
    exact of_decide_eq_true (List.mem_filter.mp mem).2
  refine .of_last reached (fun d mem within => ?_) ?_
  · have mem : d ∈ front ++ [e] := by
      rw [← eq, List.mem_filter, mem_withLines]
      exact ⟨mem, decide_eq_true within⟩
    rcases List.mem_append.mp mem with earlier | here
    · exact (List.pairwise_append.mp sorted).2.2 d earlier e List.mem_cons_self
    · exact Nat.le_of_eq (congrArg LineEntry.start (List.mem_singleton.mp here))
  · -- within the offset, nothing with this start is left out
    have part : startingAt entries e.start = startingAt (front ++ [e]) e.start := by
      rw [← eq, ← c.startingAt_withLines, startingAt, startingAt, List.filter_filter]
      refine List.filter_congr fun d _ => ?_
      by_cases same : d.start = e.start <;> simp [same, reached]
    rw [part, startingAt_append, startingAt_cons_self]
    exact List.getLast?_concat

theorem getLast?_withLines_eq_none_iff (offset : Nat) :
    ((c.withLines entries).lines.takeWhile fun e => e.start ≤ offset).getLast? = none ↔
      ¬ ∃ e ∈ entries, e.start ≤ offset := by
  rw [takeWhile_withLines, List.getLast?_eq_none_iff, List.filter_eq_nil_iff]
  simp only [mem_withLines, decide_eq_true_iff, not_exists, not_and]

theorem lineFor_of_reached {ip : Int} (started : 0 ≤ ip)
    (reached : ∃ e ∈ entries, e.start ≤ min ip.toNat 0xffffffff) :
    ∃ e, Decides entries (min ip.toNat 0xffffffff) e ∧ (c.withLines entries).lineFor ip = some e.line := by
  cases last : ((c.withLines entries).lines.takeWhile fun e => e.start ≤ min ip.toNat 0xffffffff).getLast? with
  | none => exact absurd reached ((c.getLast?_withLines_eq_none_iff entries _).mp last)
  | some e =>
    refine ⟨e, c.decides_of_getLast? entries last, ?_⟩
    rw [lineFor, if_neg (by omega)]
    simp only [last]

theorem lineFor_of_unreached {ip : Int}
    (unreached : ¬ (0 ≤ ip ∧ ∃ e ∈ entries, e.start ≤ min ip.toNat 0xffffffff)) :
    (c.withLines entries).lineFor ip = if 0 < c.firstLine then some c.firstLine else none := by
  rw [lineFor]
  split
  · rfl
  · next started =>
    have none_last := (c.getLast?_withLines_eq_none_iff entries (min ip.toNat 0xffffffff)).mpr
      fun reached => unreached ⟨by omega, reached⟩
    simp only [none_last]
    rfl

end Code

/-- From the first instruction on, a lookup finds the line of the entry that decides about the offset, which is kept
below 2 ^ 32; where there is none, it finds the line of the definition. Orders of the entries that agree on every start
give the same lookups. -/
theorem lineFor_withLines (c : Code) (entries : List LineEntry) :
    (∀ ip : Int, 0 ≤ ip → (∃ e ∈ entries, e.start ≤ min ip.toNat 0xffffffff) →
      ∃ e, Decides entries (min ip.toNat 0xffffffff) e ∧ (c.withLines entries).lineFor ip = some e.line) ∧
    (∀ ip : Int, ¬ (0 ≤ ip ∧ ∃ e ∈ entries, e.start ≤ min ip.toNat 0xffffffff) →
      (c.withLines entries).lineFor ip = if 0 < c.firstLine then some c.firstLine else none) ∧
    ∀ others, (∀ start, startingAt others start = startingAt entries start) →
      ∀ ip, (c.withLines others).lineFor ip = (c.withLines entries).lineFor ip := by
  refine ⟨fun ip => c.lineFor_of_reached entries, fun ip => c.lineFor_of_unreached entries, ?_⟩
  intro others same ip
  by_cases reached : 0 ≤ ip ∧ ∃ e ∈ entries, e.start ≤ min ip.toNat 0xffffffff
  · obtain ⟨started, d, mem, within⟩ := reached
    have mem_others : d ∈ others := mem_of_startingAt (fun start => (same start).symm) mem
    obtain ⟨e, decides, found⟩ := c.lineFor_of_reached entries started ⟨d, mem, within⟩
    obtain ⟨e', decides', found'⟩ := c.lineFor_of_reached others started ⟨d, mem_others, within⟩
    rw [found, found', (decides.reorder same).unique decides']
  · rw [c.lineFor_of_unreached entries reached, c.lineFor_of_unreached others]
    rintro ⟨started, d, mem, within⟩
    exact reached ⟨started, d, mem_of_startingAt same mem, within⟩

/-- Two entries have the same start, and one with a later start stands between them. -/
def LineEntry.tangled : List LineEntry := [⟨8, 12⟩, ⟨20, 15⟩, ⟨8, 13⟩, ⟨2, 11⟩]

theorem lineFor_withLines_tangled :
    Decides LineEntry.tangled 19 ⟨8, 13⟩ ∧
      (Code.withLines ⟨"app", "main", none, 0, 10, []⟩ LineEntry.tangled).lineFor 19 = some 13 ∧
      (Code.withLines ⟨"app", "main", none, 0, 10, []⟩ LineEntry.tangled).lineFor 1 = some 10 ∧
      (Code.withLines ⟨"app", "main", none, 0, 10, []⟩ [⟨2, 11⟩, ⟨8, 12⟩, ⟨8, 13⟩, ⟨20, 15⟩]).lineFor 0x10000000000 =
        (Code.withLines ⟨"app", "main", none, 0, 10, []⟩ LineEntry.tangled).lineFor 0x10000000000 := by
  obtain ⟨reached, unreached, reorder⟩ := lineFor_withLines ⟨"app", "main", none, 0, 10, []⟩ LineEntry.tangled
  have decides : Decides LineEntry.tangled 19 ⟨8, 13⟩ :=
    ⟨by decide, [⟨8, 12⟩, ⟨20, 15⟩], [⟨2, 11⟩], rfl, by decide, by decide⟩
  obtain ⟨e, also, found⟩ := reached 19 (by decide) (by decide)
  obtain rfl := also.unique decides
  refine ⟨decides, found, unreached 1 (by decide), reorder _ (fun start => ?_) 0x10000000000⟩
  simp only [LineEntry.tangled, startingAt, List.filter_cons, List.filter_nil]
  grind

end Activation
