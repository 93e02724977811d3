import Activation.Proofs.Toml.Documents
import Activation.Settings

/-! # Reading back written settings

Settings are written as a plain document of three tables with one key each, and the last of these is left out when there
is no filter. Which library reads and writes the document does not matter, as long as it follows the rules of plain
documents.

* `plain_toDocument`: settings of a size that can be held make a plain document.
* `ofEntries_eq_ok_iff`: what it means to read settings from entries.
* `parse_serialize_iff`: the settings that are valid and of a size that can be held come back as they were, and no
  others do.
-/

namespace Activation.Settings
set_option autoImplicit false

theorem plain_toDocument {s : Settings} (small : s.maxDepth < sizeBound) : s.toDocument.Plain where
  names := by
    show ["refs", "walk", "log"].Nodup
    decide
  bare := by
    simp only [toDocument, List.forall_mem_cons]
    decide
  keys := by
    simp only [toDocument, List.forall_mem_cons]
    cases s.filter <;> simp
  entries := by
    have label : Toml.isBareKey "filter" = true := by decide
    have filter : ∀ e ∈ s.filter.toList.map fun text => ("filter", Toml.Scalar.string text),
        Toml.isBareKey e.1 = true ∧ e.2.Small := by
      intro e mem
      obtain ⟨text, -, rfl⟩ := List.mem_map.mp mem
      exact ⟨label, trivial⟩
    have switch : Toml.isBareKey "dump_changes" = true := by decide
    have depth : Toml.isBareKey "max_depth" = true := by decide
    simp only [toDocument, List.forall_mem_cons]
    exact ⟨⟨⟨switch, trivial⟩, nofun⟩, ⟨⟨depth, small⟩, nofun⟩, filter, nofun⟩

/-! ## Entries -/

/-- Reading entries is reading the three fields, and passing over sections without a meaning. -/
theorem ofEntries_eq_ok_iff {entries : Toml.Entries} {s : Settings} : ofEntries entries = .ok s ↔
    Toml.entriesReadable (entries.filter fun e => !sections.contains e.1) = true ∧
    readField entries "refs" "dump_changes" false readBool = .ok s.dumpChanges ∧
    readField entries "walk" "max_depth" defaultMaxDepth readSize = .ok s.maxDepth ∧
    readField entries "log" "filter" none readText = .ok s.filter := by
  unfold ofEntries
  cases Toml.entriesReadable (entries.filter fun e => !sections.contains e.1) with
  | false => simp [bind, Except.bind]
  | true =>
    cases readField entries "refs" "dump_changes" false readBool with
    | error e => simp [bind, Except.bind]
    | ok dumpChanges =>
      cases readField entries "walk" "max_depth" defaultMaxDepth readSize with
      | error e => simp [bind, Except.bind]
      | ok maxDepth =>
        cases readField entries "log" "filter" none readText with
        | error e => simp [bind, Except.bind]
        | ok filter =>
          obtain ⟨_, _, _⟩ := s
          simp [bind, Except.bind, pure, Except.pure]

theorem readSize_cast {n : Nat} (small : n < sizeBound) : readSize (.integer n) = some n := by
  have held : 0 ≤ (n : Int) ∧ (n : Int) < sizeBound := ⟨Int.natCast_nonneg n, Int.ofNat_lt.mpr small⟩
  simp only [readSize, held, and_self, if_true, Int.toNat_natCast]

/-- A section that is there with its field is read from the field. -/
theorem readField_of_lookup {α : Type} {entries : Toml.Entries} {name key : String} {absent a : α}
    {read : Toml.Value → Option α} {form : Toml.TableForm} {v : Toml.Value}
    (here : entries.lookup name = some (.table form [(key, v)])) (readable : v.isReadable = true)
    (value : read v = some a) : readField entries name key absent read = .ok a := by
  have field : fieldOf key (.table form [(key, v)]) = some (some v) := by
    simp [fieldOf, Toml.entriesReadable, readable]
  simp only [readField, here, field, value]

theorem ofEntries_toDocument (s : Settings) (small : s.maxDepth < sizeBound) :
    ofEntries s.toDocument.entries = .ok s := by
  have refs : readField s.toDocument.entries "refs" "dump_changes" false readBool = .ok s.dumpChanges :=
    readField_of_lookup rfl rfl rfl
  have walk : readField s.toDocument.entries "walk" "max_depth" defaultMaxDepth readSize = .ok s.maxDepth :=
    readField_of_lookup rfl rfl (readSize_cast small)
  have log : readField s.toDocument.entries "log" "filter" none readText = .ok s.filter := by
    cases filter : s.filter with
    | none =>
      have here : s.toDocument.entries.lookup "log" = some (.table .header []) := by
        rw [toDocument, filter]
        rfl
      have field : fieldOf "filter" (.table .header []) = some none := rfl
      simp only [readField, here, field]
    | some text =>
      have here : s.toDocument.entries.lookup "log" = some (.table .header [("filter", .string text)]) := by
        rw [toDocument, filter]
        rfl
      exact readField_of_lookup here rfl rfl
  exact ofEntries_eq_ok_iff.mpr ⟨rfl, refs, walk, log⟩

theorem readField_eq_ok {α : Type} {entries : Toml.Entries} {name key : String} {absent a : α}
    {read : Toml.Value → Option α} (field : readField entries name key absent read = .ok a) :
    a = absent ∨ ∃ v, read v = some a := by
  unfold readField at field
  split at field
  · exact .inl (Except.ok.inj field).symm
  · split at field
    · cases field
    · exact .inl (Except.ok.inj field).symm
    · split at field
      · cases field
      · obtain rfl := Except.ok.inj field
        exact .inr ⟨_, ‹_›⟩

theorem readSize_lt {v : Toml.Value} {n : Nat} (size : readSize v = some n) : n < sizeBound := by
  unfold readSize at size
  split at size
  · split_ifs at size with held
    obtain rfl := Option.some.inj size
    omega
  · cases size

/-- Settings that are read from entries have a size that can be held. -/
theorem maxDepth_lt_of_ofEntries {entries : Toml.Entries} {s : Settings} (read : ofEntries entries = .ok s) :
    s.maxDepth < sizeBound := by
  obtain ⟨-, -, field, -⟩ := ofEntries_eq_ok_iff.mp read
  obtain absent | ⟨v, held⟩ := readField_eq_ok field
  · rw [absent]
    decide
  · exact readSize_lt held

/-! ## The round trip -/

variable {toml : Toml.Library}

theorem parse_eq_ok {text : String} {s : Settings} (read : parse toml text = .ok s) :
    s.validate = .ok s ∧ s.maxDepth < sizeBound := by
  unfold parse at read
  split at read
  · cases read
  · rename_i entries _
    cases held : ofEntries entries with
    | error e => simp [held, Except.bind] at read
    | ok t =>
      simp only [held, Except.bind] at read
      have same : t = s := by
        unfold validate at read
        split_ifs at read
        exact Except.ok.inj read
      subst same
      exact ⟨read, maxDepth_lt_of_ofEntries held⟩

/-- Exactly the settings that are valid and of a size that can be held come back from their document. -/
theorem parse_serialize_iff (follows : toml.Follows) (s : Settings) :
    (s.serialize toml).map (parse toml) = some (.ok s) ↔ s.validate = .ok s ∧ s.maxDepth < sizeBound := by
  constructor
  · intro back
    obtain ⟨text, -, read⟩ := Option.map_eq_some_iff.mp back
    exact parse_eq_ok read
  · rintro ⟨valid, small⟩
    have plain := plain_toDocument small
    have read : toml.read s.toDocument.text = some s.toDocument.entries := follows.reads plain.meaning
    rw [serialize, follows.writes plain, Option.map_some, parse, read]
    change some ((ofEntries s.toDocument.entries).bind validate) = _
    rw [ofEntries_toDocument s small]
    exact congrArg some valid

/-- The largest depth, and a filter with quotes of both sorts in a row, a newline, a backslash and control
characters. -/
def ornate : Settings :=
  { dumpChanges := true, maxDepth := 0xffffffffffffffff, filter := some "\n\"\"\"'''\\\t\r\x00" }

theorem parse_serialize_ornate :
    Toml.library.Follows ∧ ornate.serialize Toml.library = some ornate.toToml ∧
      (ornate.serialize Toml.library).map (parse Toml.library) = some (.ok ornate) :=
  ⟨Toml.library_follows, rfl, (parse_serialize_iff Toml.library_follows ornate).mpr ⟨rfl, by decide⟩⟩

end Activation.Settings
