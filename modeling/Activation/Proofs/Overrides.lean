import Activation.Proofs.Settings
import Mathlib.Data.List.Induction
import Mathlib.Data.Nat.Digits.Defs

/-! # Overrides of the settings

Two variables of the environment override a field each. Their values are described here by their grammar.

* `Text.Trimmed cs word`: `word` is `cs` without the blanks around it.
* `SpellsSwitch raw b`, `DenotesSize raw n`: what the values of the two variables mean.
* `Overridden lookup s c`: `c` is `s`, except that the variables that are set have their say.
* `FirstOffence lookup s e`: `e` names the first thing that is wrong with the variables, or with the settings they make.
* `override_decides`: which settings come of it, and which error; the settings are fit to be applied.
-/

namespace Activation
set_option autoImplicit false

/-! ## Blanks -/

namespace Text

structure Trimmed (cs word : List Char) : Prop where
  parts : ∃ before after, cs = before ++ (word ++ after) ∧
    (∀ c ∈ before, isBlank c = true) ∧ ∀ c ∈ after, isBlank c = true
  first : ∀ c, word.head? = some c → isBlank c = false
  last : ∀ c, word.getLast? = some c → isBlank c = false

variable {cs before word after digits : List Char} {n bound : Nat}

theorem head?_dropWhile_isBlank {c : Char} (head : (cs.dropWhile isBlank).head? = some c) : isBlank c = false := by
  have first := List.head?_dropWhile_not isBlank cs
  rw [head] at first
  exact first

theorem dropWhile_isBlank_eq (blank : ∀ c ∈ before, isBlank c = true)
    (first : ∀ c, word.head? = some c → isBlank c = false) : (before ++ word).dropWhile isBlank = word := by
  rw [List.dropWhile_append_of_pos blank]
  cases word with
  | nil => rfl
  | cons c word => rw [List.dropWhile_cons_of_neg (by simp [first c rfl])]

theorem trimmed_trimList (cs : List Char) : Trimmed cs (trimList cs) := by
  have front : cs.takeWhile isBlank ++ cs.dropWhile isBlank = cs := List.takeWhile_append_dropWhile
  have back : trimList cs ++ ((cs.dropWhile isBlank).reverse.takeWhile isBlank).reverse = cs.dropWhile isBlank := by
    rw [trimList, ← List.reverse_append, List.takeWhile_append_dropWhile, List.reverse_reverse]
  refine ⟨⟨cs.takeWhile isBlank, ((cs.dropWhile isBlank).reverse.takeWhile isBlank).reverse, ?_, ?_, ?_⟩, ?_, ?_⟩
  · rw [back, front]
  · exact fun c mem => List.mem_takeWhile_imp mem
  · exact fun c mem => List.mem_takeWhile_imp (List.mem_reverse.mp mem)
  · intro c head
    have first : (cs.dropWhile isBlank).head? = some c := by rw [← back, List.head?_append, head]; rfl
    exact head?_dropWhile_isBlank first
  · intro c last
    rw [trimList, List.getLast?_reverse] at last
    exact head?_dropWhile_isBlank last

theorem Trimmed.trimList_eq (trimmed : Trimmed cs word) : trimList cs = word := by
  obtain ⟨⟨before, after, rfl, blank_before, blank_after⟩, first, last⟩ := trimmed
  have left : (before ++ (word ++ after)).dropWhile isBlank = if word = [] then [] else word ++ after := by
    split
    · next empty =>
      rw [empty, List.nil_append, List.dropWhile_eq_nil_iff]
      intro c mem
      exact (List.mem_append.mp mem).elim (blank_before c) (blank_after c)
    · next nonempty =>
      refine dropWhile_isBlank_eq blank_before fun c head => first c ?_
      rwa [List.head?_append_of_ne_nil _ nonempty] at head
  rw [trimList, left]
  split
  · next empty => rw [empty]; rfl
  · rw [List.reverse_append, dropWhile_isBlank_eq, List.reverse_reverse]
    · exact fun c mem => blank_after c (List.mem_reverse.mp mem)
    · intro c head
      rw [List.head?_reverse] at head
      exact last c head

theorem trimList_eq_iff : trimList cs = word ↔ Trimmed cs word := by
  constructor
  · rintro rfl
    exact trimmed_trimList cs
  · exact Trimmed.trimList_eq

/-! ## Numbers -/

/-- The number that decimal digits denote, the last one counting once. -/
def decimal (digits : List Char) : Nat := Nat.ofDigits 10 (digits.reverse.map fun c => c.toNat - '0'.toNat)

theorem digitsValue_eq_decimal (digits : List Char) : digitsValue digits = decimal digits := by
  induction digits using List.reverseRecOn with
  | nil => rfl
  | append_singleton digits c ih =>
    rw [decimal, List.reverse_append, List.reverse_singleton, List.singleton_append, List.map_cons,
      Nat.ofDigits_cons, ← decimal, ← ih, digitsValue, List.foldl_append, List.foldl_cons, List.foldl_nil,
      ← digitsValue, Nat.add_comm]

theorem readDigits_eq_some_iff : readDigits digits = some n ↔
    (digits ≠ [] ∧ ∀ c ∈ digits, c.isDigit = true) ∧ n = decimal digits := by
  have proper : (digits.isEmpty || !digits.all Char.isDigit) = true ↔
      ¬ (digits ≠ [] ∧ ∀ c ∈ digits, c.isDigit = true) := by
    rw [Bool.or_eq_true, List.isEmpty_iff, Bool.not_eq_true', Bool.eq_false_iff, Ne, List.all_eq_true]
    tauto
  rw [readDigits, digitsValue_eq_decimal]
  split
  · next bad =>
    refine ⟨fun read => ?_, fun ok => absurd ok.1 (proper.mp bad)⟩
    cases read
  · next good =>
    rw [Option.some.injEq]
    exact ⟨fun same => ⟨not_not.mp (mt proper.mpr good), same.symm⟩, fun ok => ok.2.symm⟩

theorem readNumber_eq_some_iff {s : String} : readNumber bound s = some n ↔
    ∃ digits, (s.toList = digits ∨ s.toList = '+' :: digits) ∧
      (digits ≠ [] ∧ ∀ c ∈ digits, c.isDigit = true) ∧ n = decimal digits ∧ n < bound := by
  simp only [readNumber, Option.filter_eq_some_iff, decide_eq_true_iff, readDigits_eq_some_iff]
  split
  · next cs plus =>
    constructor
    · rintro ⟨⟨proper, value⟩, below⟩
      exact ⟨cs, .inr plus, proper, value, below⟩
    · rintro ⟨digits, same | same, proper, value, below⟩
      · -- a plus sign is no digit
        have sign : '+' ∈ digits := by rw [← same, plus]; exact List.mem_cons_self
        exact absurd (proper.2 '+' sign) (by decide)
      · rw [plus, List.cons.injEq] at same
        rw [same.2]
        exact ⟨⟨proper, value⟩, below⟩
  · next bare =>
    constructor
    · rintro ⟨⟨proper, value⟩, below⟩
      exact ⟨s.toList, .inl rfl, proper, value, below⟩
    · rintro ⟨digits, same | same, proper, value, below⟩
      · rw [same]
        exact ⟨⟨proper, value⟩, below⟩
      · exact absurd same (bare digits)

end Text

/-! ## The values of the variables -/

namespace Settings

variable {lookup : String → Option String} {s c : Settings} {e : SettingsError} {raw : String} {b : Bool} {n : Nat}

/-- The lower-case spellings of the two states. -/
def switchWords : Bool → List String
  | true => ["1", "true", "on", "yes"]
  | false => ["0", "false", "off", "no", ""]

def SpellsSwitch (raw : String) (b : Bool) : Prop :=
  ∃ word, Text.Trimmed raw.toList word ∧ String.ofList (word.map Char.toLower) ∈ switchWords b

def DenotesSize (raw : String) (n : Nat) : Prop :=
  ∃ digits, (Text.Trimmed raw.toList digits ∨ Text.Trimmed raw.toList ('+' :: digits)) ∧
    (digits ≠ [] ∧ ∀ c ∈ digits, c.isDigit = true) ∧ n = Text.decimal digits ∧ n < 2 ^ 64

theorem spellsSwitch_iff : SpellsSwitch raw b ↔ Text.lowerCase (Text.trim raw) ∈ switchWords b := by
  rw [Text.lowerCase, Text.trim, String.toList_ofList]
  constructor
  · rintro ⟨word, trimmed, spelled⟩
    rwa [trimmed.trimList_eq]
  · exact fun spelled => ⟨_, Text.trimmed_trimList _, spelled⟩

theorem readSwitch_eq_some_iff : readSwitch raw = some b ↔ SpellsSwitch raw b := by
  have apart : ∀ word ∈ switchWords true, word ∉ switchWords false := by decide
  have read : readSwitch raw =
      if Text.lowerCase (Text.trim raw) ∈ switchWords true then some true
      else if Text.lowerCase (Text.trim raw) ∈ switchWords false then some false else none := rfl
  rw [spellsSwitch_iff, read]
  cases b <;> grind

theorem readSize_eq_some_iff : Text.readNumber sizeBound (Text.trim raw) = some n ↔ DenotesSize raw n := by
  simp only [Text.readNumber_eq_some_iff, Text.trim, String.toList_ofList, Text.trimList_eq_iff]
  rfl

/-! ## One variable -/

/-- The value of a variable, as far as it is set. -/
def readVariable {α : Type} (lookup : String → Option String) (key : String) (read : String → Option α) (absent : α) :
    Except SettingsError α :=
  match lookup key with
  | none => .ok absent
  | some raw =>
    match read raw with
    | none => .error (.invalid key raw)
    | some a => .ok a

section Variable

variable {α : Type} {key : String} {read : String → Option α} {absent a : α}

theorem readVariable_eq_ok_iff : readVariable lookup key read absent = .ok a ↔
    (∀ raw, lookup key = some raw → read raw = some a) ∧ (lookup key = none → a = absent) := by
  unfold readVariable
  cases lookup key with
  | none => simp [eq_comm]
  | some raw => cases reading : read raw <;> simp [reading, eq_comm]

theorem readVariable_eq_error_iff : readVariable lookup key read absent = .error e ↔
    ∃ raw, lookup key = some raw ∧ read raw = none ∧ e = .invalid key raw := by
  unfold readVariable
  cases lookup key with
  | none => simp
  | some raw => cases reading : read raw <;> simp [reading, eq_comm]

end Variable

def switchFrom (s : Settings) (lookup : String → Option String) : Except SettingsError Bool :=
  readVariable lookup "UMBRA_DUMP_REFS" readSwitch s.dumpChanges

def sizeFrom (s : Settings) (lookup : String → Option String) : Except SettingsError Nat :=
  readVariable lookup "UMBRA_WALK_MAX_DEPTH" (fun raw => Text.readNumber sizeBound (Text.trim raw)) s.maxDepth

theorem override_eq (s : Settings) (lookup : String → Option String) : s.override lookup =
    (s.switchFrom lookup).bind fun b => (s.sizeFrom lookup).bind fun n =>
      validate { s with dumpChanges := b, maxDepth := n } := by
  unfold override switchFrom sizeFrom readVariable dumpRefsVariable maxDepthVariable
  cases lookup "UMBRA_DUMP_REFS" with
  | none =>
    cases lookup "UMBRA_WALK_MAX_DEPTH" with
    | none => rfl
    | some raw => cases reading : Text.readNumber sizeBound (Text.trim raw) <;> simp [reading, bind, Except.bind]
  | some raw =>
    cases reading : readSwitch raw with
    | none => simp [reading, bind, Except.bind]
    | some b =>
      cases lookup "UMBRA_WALK_MAX_DEPTH" with
      | none => simp [reading, bind, Except.bind]
      | some raw => cases size : Text.readNumber sizeBound (Text.trim raw) <;> simp [reading, size, bind, Except.bind]

/-! ## What comes of the variables -/

structure Overridden (lookup : String → Option String) (s c : Settings) : Prop where
  switch : ∀ raw, lookup "UMBRA_DUMP_REFS" = some raw → SpellsSwitch raw c.dumpChanges
  switch_unset : lookup "UMBRA_DUMP_REFS" = none → c.dumpChanges = s.dumpChanges
  size : ∀ raw, lookup "UMBRA_WALK_MAX_DEPTH" = some raw → DenotesSize raw c.maxDepth
  size_unset : lookup "UMBRA_WALK_MAX_DEPTH" = none → c.maxDepth = s.maxDepth
  filter : c.filter = s.filter

inductive FirstOffence (lookup : String → Option String) (s : Settings) : SettingsError → Prop where
  | switch {raw : String} (set : lookup "UMBRA_DUMP_REFS" = some raw) (bad : ∀ b, ¬ SpellsSwitch raw b) :
      FirstOffence lookup s (.invalid "UMBRA_DUMP_REFS" raw)
  | size {raw : String} (fine : ∀ raw, lookup "UMBRA_DUMP_REFS" = some raw → ∃ b, SpellsSwitch raw b)
      (set : lookup "UMBRA_WALK_MAX_DEPTH" = some raw) (bad : ∀ n, ¬ DenotesSize raw n) :
      FirstOffence lookup s (.invalid "UMBRA_WALK_MAX_DEPTH" raw)
  | zero {c : Settings} (overridden : Overridden lookup s c) (zero : c.maxDepth = 0) :
      FirstOffence lookup s (.invalid "walk.max_depth" "0")

theorem validate_eq_ok_iff : s.validate = .ok c ↔ s.maxDepth ≠ 0 ∧ s = c := by
  unfold validate
  split <;> simp_all

theorem validate_eq_error_iff : s.validate = .error e ↔ s.maxDepth = 0 ∧ e = .invalid "walk.max_depth" "0" := by
  unfold validate
  split <;> simp_all [eq_comm]

theorem switchFrom_eq_ok_iff : s.switchFrom lookup = .ok b ↔
    (∀ raw, lookup "UMBRA_DUMP_REFS" = some raw → SpellsSwitch raw b) ∧
      (lookup "UMBRA_DUMP_REFS" = none → b = s.dumpChanges) := by
  simp only [switchFrom, readVariable_eq_ok_iff, readSwitch_eq_some_iff]

theorem sizeFrom_eq_ok_iff : s.sizeFrom lookup = .ok n ↔
    (∀ raw, lookup "UMBRA_WALK_MAX_DEPTH" = some raw → DenotesSize raw n) ∧
      (lookup "UMBRA_WALK_MAX_DEPTH" = none → n = s.maxDepth) := by
  simp only [sizeFrom, readVariable_eq_ok_iff, readSize_eq_some_iff]

theorem switchFrom_eq_error_iff : s.switchFrom lookup = .error e ↔
    ∃ raw, lookup "UMBRA_DUMP_REFS" = some raw ∧ (∀ b, ¬ SpellsSwitch raw b) ∧
      e = .invalid "UMBRA_DUMP_REFS" raw := by
  simp only [switchFrom, readVariable_eq_error_iff, Option.eq_none_iff_forall_ne_some, ne_eq,
    readSwitch_eq_some_iff]

theorem sizeFrom_eq_error_iff : s.sizeFrom lookup = .error e ↔
    ∃ raw, lookup "UMBRA_WALK_MAX_DEPTH" = some raw ∧ (∀ n, ¬ DenotesSize raw n) ∧
      e = .invalid "UMBRA_WALK_MAX_DEPTH" raw := by
  simp only [sizeFrom, readVariable_eq_error_iff, Option.eq_none_iff_forall_ne_some, ne_eq, readSize_eq_some_iff]

theorem overridden_iff : Overridden lookup s c ↔
    s.switchFrom lookup = .ok c.dumpChanges ∧ s.sizeFrom lookup = .ok c.maxDepth ∧ c.filter = s.filter := by
  rw [switchFrom_eq_ok_iff, sizeFrom_eq_ok_iff]
  constructor
  · rintro ⟨switch, switch_unset, size, size_unset, filter⟩
    exact ⟨⟨switch, switch_unset⟩, ⟨size, size_unset⟩, filter⟩
  · rintro ⟨⟨switch, switch_unset⟩, ⟨size, size_unset⟩, filter⟩
    exact ⟨switch, switch_unset, size, size_unset, filter⟩

theorem Overridden.override_eq (overridden : Overridden lookup s c) : s.override lookup = c.validate := by
  obtain ⟨switch, size, filter⟩ := overridden_iff.mp overridden
  rw [Settings.override_eq, switch, size, ← filter]
  rfl

theorem override_of_switch_error (switch : s.switchFrom lookup = .error e) : s.override lookup = .error e := by
  rw [override_eq, switch]
  rfl

theorem override_of_size_error (switch : s.switchFrom lookup = .ok b) (size : s.sizeFrom lookup = .error e) :
    s.override lookup = .error e := by
  rw [override_eq, switch, size]
  rfl

/-- Either the variables make settings, which are then checked, or the first of them that cannot be read is named. -/
theorem override_cases (s : Settings) (lookup : String → Option String) :
    (∃ c, Overridden lookup s c) ∨ ∃ e, s.override lookup = .error e ∧ FirstOffence lookup s e := by
  cases switch : s.switchFrom lookup with
  | error e =>
    obtain ⟨raw, set, bad, rfl⟩ := switchFrom_eq_error_iff.mp switch
    exact .inr ⟨_, override_of_switch_error switch, .switch set bad⟩
  | ok b =>
    have fine : ∀ raw, lookup "UMBRA_DUMP_REFS" = some raw → ∃ b, SpellsSwitch raw b :=
      fun raw set => ⟨b, (switchFrom_eq_ok_iff.mp switch).1 raw set⟩
    cases size : s.sizeFrom lookup with
    | error e =>
      obtain ⟨raw, set, bad, rfl⟩ := sizeFrom_eq_error_iff.mp size
      exact .inr ⟨_, override_of_size_error switch size, .size fine set bad⟩
    | ok n => exact .inl ⟨{ s with dumpChanges := b, maxDepth := n }, overridden_iff.mpr ⟨switch, size, rfl⟩⟩

theorem override_eq_ok_iff : s.override lookup = .ok c ↔ Overridden lookup s c ∧ c.maxDepth ≠ 0 := by
  constructor
  · intro accepted
    rcases s.override_cases lookup with ⟨d, overridden⟩ | ⟨e, refused, -⟩
    · rw [overridden.override_eq, validate_eq_ok_iff] at accepted
      obtain ⟨positive, rfl⟩ := accepted
      exact ⟨overridden, positive⟩
    · rw [refused] at accepted
      cases accepted
  · rintro ⟨overridden, positive⟩
    rw [overridden.override_eq, validate_eq_ok_iff]
    exact ⟨positive, rfl⟩

theorem FirstOffence.override_eq (offence : FirstOffence lookup s e) : s.override lookup = .error e := by
  cases offence with
  | @switch raw set bad => exact override_of_switch_error (switchFrom_eq_error_iff.mpr ⟨raw, set, bad, rfl⟩)
  | @size raw fine set bad =>
    cases switch : s.switchFrom lookup with
    | error e =>
      obtain ⟨other, set, bad, -⟩ := switchFrom_eq_error_iff.mp switch
      obtain ⟨b, spelled⟩ := fine other set
      exact absurd spelled (bad b)
    | ok b => exact override_of_size_error switch (sizeFrom_eq_error_iff.mpr ⟨raw, set, bad, rfl⟩)
  | zero overridden zero =>
    rw [overridden.override_eq, validate_eq_error_iff]
    exact ⟨zero, rfl⟩

theorem override_eq_error_iff : s.override lookup = .error e ↔ FirstOffence lookup s e := by
  refine ⟨fun refused => ?_, FirstOffence.override_eq⟩
  rcases s.override_cases lookup with ⟨c, overridden⟩ | ⟨d, also, offence⟩
  · rw [overridden.override_eq, validate_eq_error_iff] at refused
    obtain ⟨zero, rfl⟩ := refused
    exact .zero overridden zero
  · rw [also] at refused
    cases refused
    exact offence

/-- The values that a variable may have do not depend on the settings. -/
theorem Overridden.again (overridden : Overridden lookup s c) : Overridden lookup c c :=
  { overridden with switch_unset := fun _ => rfl, size_unset := fun _ => rfl, filter := rfl }

/-! ## Applying -/

theorem maxDepth_ne_zero_of_ofToml {text : String} (read : ofToml text = .ok c) : c.maxDepth ≠ 0 :=
  (validate_eq_ok_iff.mp (parse_eq_ok read).1).1

theorem maxDepth_ne_zero_of_load {path : String} {contents : Except String String}
    (loaded : load path contents = .ok c) : c.maxDepth ≠ 0 := by
  unfold load at loaded
  split at loaded
  · cases loaded
  · split at loaded
    · cases loaded
    · next read =>
      cases loaded
      exact maxDepth_ne_zero_of_ofToml read

theorem maxDepth_apply {ε : Type} (positive : c.maxDepth ≠ 0) (w : World ε) : (c.apply w).maxDepth = c.maxDepth :=
  Nat.max_eq_left (Nat.pos_of_ne_zero positive)

/-- Overriding succeeds exactly if the variables that are set follow their grammar and the depth is not zero, and then
changes nothing but what they say; otherwise the error names the first offender. Overriding again changes nothing. A
depth that was read, loaded or overridden is the bound on walks once it is applied. -/
theorem override_decides (s : Settings) (lookup : String → Option String) :
    (∀ c, s.override lookup = .ok c ↔ Overridden lookup s c ∧ c.maxDepth ≠ 0) ∧
    (∀ e, s.override lookup = .error e ↔ FirstOffence lookup s e) ∧
    (∀ c, s.override lookup = .ok c → c.override lookup = .ok c) ∧
    ∀ c, (∃ text, ofToml text = .ok c) ∨ (∃ path contents, load path contents = .ok c) ∨ s.override lookup = .ok c →
      ∀ (ε : Type) (w : World ε), (c.apply w).maxDepth = c.maxDepth := by
  refine ⟨fun c => override_eq_ok_iff, fun e => override_eq_error_iff, fun c accepted => ?_, ?_⟩
  · obtain ⟨overridden, positive⟩ := override_eq_ok_iff.mp accepted
    exact override_eq_ok_iff.mpr ⟨overridden.again, positive⟩
  · rintro c (⟨text, read⟩ | ⟨path, contents, loaded⟩ | accepted) ε w
    · exact maxDepth_apply (maxDepth_ne_zero_of_ofToml read) w
    · exact maxDepth_apply (maxDepth_ne_zero_of_load loaded) w
    · exact maxDepth_apply (override_eq_ok_iff.mp accepted).2 w

/-- A switch in capitals between blanks, and a size with a sign and leading zeros. -/
def shouting (key : String) : Option String :=
  if key = "UMBRA_DUMP_REFS" then some "\u2003YES\n" else if key = "UMBRA_WALK_MAX_DEPTH" then some " +0064" else none

theorem override_decides_shouting :
    Settings.override {} shouting = .ok { dumpChanges := true, maxDepth := 64 } ∧
      Settings.override { dumpChanges := true, maxDepth := 64 } shouting = .ok { dumpChanges := true, maxDepth := 64 } ∧
      (Settings.apply { dumpChanges := true, maxDepth := 64 } ({ host := () } : World Unit)).maxDepth = 64 := by
  obtain ⟨accepts, -, again, applied⟩ := override_decides {} shouting
  have overridden : Overridden shouting {} { dumpChanges := true, maxDepth := 64 } := by
    refine ⟨fun raw set => ?_, fun unset => ?_, fun raw set => ?_, fun unset => ?_, rfl⟩
    · obtain rfl : "\u2003YES\n" = raw := Option.some.inj set
      exact ⟨['Y', 'E', 'S'], Text.trimList_eq_iff.mp rfl, by decide⟩
    · exact absurd unset (by decide)
    · obtain rfl : " +0064" = raw := Option.some.inj set
      exact ⟨['0', '0', '6', '4'], .inr (Text.trimList_eq_iff.mp rfl), ⟨by decide, List.all_eq_true.mp rfl⟩, rfl,
        by decide⟩
    · exact absurd unset (by decide)
  have accepted := (accepts _).mpr ⟨overridden, by decide⟩
  exact ⟨accepted, again _ accepted, applied _ (.inr (.inr accepted)) Unit _⟩

end Settings

end Activation
