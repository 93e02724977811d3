import Activation.Proofs.Toml.Strings
import Mathlib.Data.List.Basic
import Mathlib.Data.List.TakeWhile

/-! # Plain documents, written and read

What the writer makes of a plain document tells what is in it, and the reader finds in a text what the text tells.

* `Document.Plain.meaning`: the written text of a plain document tells the document.
* `Denotes.readValue`: what stands between the equals sign and the end of the line is the value.
* `Lines.readLines`: each line of a text changes the draft of the reader as it changes the document.
* `library_follows`: `library` is as good as any library.
-/

namespace Activation.Toml
set_option autoImplicit false

variable {c : Char} {cs rest : List Char}

/-! ## Written documents -/

theorem denotes_written {v : Scalar} (small : v.Small) : Denotes v.written v := by
  cases v with
  | boolean b => exact .boolean b
  | integer n => exact .integer small
  | string text => exact .string (spelled_writeString text.toList)

/-- Of distinct names, one is not among those in front of it. -/
theorem fresh_of_nodup {α : Type} {l m : List (String × α)} {x : String × α}
    (distinct : ((l ++ x :: m).map Prod.fst).Nodup) : x.1 ∉ l.map Prod.fst := by
  rw [List.map_append, List.map_cons, List.nodup_append] at distinct
  exact fun mem => distinct.2.2 x.1 mem x.1 List.mem_cons_self rfl

/-- The lines of a table are added to the keys that the table has. -/
theorem Lines.table {d e : Document} {name : String} {es more : List (String × Scalar)}
    (distinct : ((es ++ more).map Prod.fst).Nodup) (plain : ∀ x ∈ more, isBareKey x.1 = true ∧ x.2.Small)
    (lines : Lines (d ++ [(name, es ++ more)]) rest e) : Lines (d ++ [(name, es)]) (tableText more rest) e := by
  induction more generalizing es with
  | nil => rwa [List.append_nil] at lines
  | cons x more ih =>
    obtain ⟨bare, small⟩ := plain x List.mem_cons_self
    have fresh : x.1 ∉ es.map Prod.fst := fresh_of_nodup distinct
    have shift : es ++ x :: more = (es ++ [(x.1, x.2)]) ++ more := by simp
    rw [shift] at distinct lines
    exact .entry bare fresh (denotes_written small)
      (ih distinct (fun y mem => plain y (List.mem_cons_of_mem _ mem)) lines)

theorem Lines.section {d e : Document} {t : String × List (String × Scalar)} (plain : (d ++ [t]).Plain)
    (lines : Lines (d ++ [t]) rest e) : Lines d (headingText t.1 (tableText t.2 rest)) e := by
  have here : t ∈ d ++ [t] := by simp
  exact .heading (plain.bare t here) (fresh_of_nodup plain.names)
    (.table (plain.keys t here) (plain.entries t here) lines)

theorem Document.Plain.of_append {d e : Document} (plain : (d ++ e).Plain) : d.Plain where
  names := by
    have distinct := plain.names
    rw [List.map_append] at distinct
    exact (List.nodup_append.mp distinct).1
  bare t mem := plain.bare t (List.mem_append_left e mem)
  keys t mem := plain.keys t (List.mem_append_left e mem)
  entries t mem := plain.entries t (List.mem_append_left e mem)

theorem Lines.written {front d : Document} (plain : (front ++ d).Plain) : Lines front d.written (front ++ d) := by
  induction d generalizing front with
  | nil =>
    rw [List.append_nil]
    exact .nil front
  | cons t d ih =>
    have shift : front ++ t :: d = (front ++ [t]) ++ d := by simp
    rw [shift] at plain ⊢
    have later := ih plain
    match d with
    | [] => exact .section plain.of_append later
    | u :: d => exact .section plain.of_append (.blank later)

/-- The written text of a plain document tells the document. -/
theorem Document.Plain.meaning {d : Document} (plain : d.Plain) : Tells d.text d := by
  have lines : Lines [] d.written ([] ++ d) := .written plain
  rw [Tells, Document.text, String.toList_ofList]
  exact lines

/-! ## Numbers -/

theorem ne_of_isDigit {d : Char} (digit : c.isDigit = true) (other : d.isDigit = false) : c ≠ d := by
  rintro rfl
  simp [other] at digit

theorem valueOf_ten (digits : ∀ c ∈ cs, c.isDigit = true) : Text.valueOf 10 cs = Nat.ofDigitChars 10 cs 0 := by
  unfold Text.valueOf Nat.ofDigitChars
  refine List.foldl_ext _ _ _ fun n c mem => ?_
  simp [Text.digitValue, digits c mem]

theorem head?_toDigits {n : Nat} (pos : n ≠ 0) : (Nat.toDigits 10 n).head? ≠ some '0' := by
  induction n using Nat.strong_induction_on with
  | h n ih =>
    rw [Nat.toDigits_eq_if (by decide)]
    split_ifs with small
    · interval_cases n <;> simp_all
    · rw [List.head?_append_of_ne_nil _ Nat.toDigits_ne_nil]
      exact ih (n / 10) (by omega) (by omega)

theorem readMark_digits (mark : Char) (other : mark.isDigit = false) (digits : ∀ c ∈ cs, c.isDigit = true) :
    readMark mark cs = none := by
  match cs with
  | [] => rfl
  | c :: cs => simp [readMark, ne_of_isDigit (digits c List.mem_cons_self) other]

theorem readFixed_digits (width : Nat) (digits : ∀ c ∈ cs, c.isDigit = true) {r : Nat × List Char}
    (read : readFixed width cs = some r) : ∀ c ∈ r.2, c.isDigit = true := by
  simp only [readFixed] at read
  split_ifs at read
  obtain rfl := Option.some.inj read
  exact fun c mem => digits c (List.mem_of_mem_drop mem)

/-- Digits alone make no date and no time, which need a mark between them. -/
theorem isDatetime_digits (digits : ∀ c ∈ cs, c.isDigit = true) : isDatetime cs = false := by
  have date : readDate cs = none := by
    unfold readDate
    cases year : readFixed 4 cs with
    | none => rfl
    | some r => simp [readMark_digits '-' rfl (readFixed_digits 4 digits year)]
  have time : readTime cs = none := by
    unfold readTime
    cases hour : readFixed 2 cs with
    | none => rfl
    | some r => simp [readMark_digits ':' rfl (readFixed_digits 2 digits hour)]
  simp [isDatetime, date, time]

theorem isGrouped_digits (digits : ∀ c ∈ cs, c.isDigit = true) (isDigit : Char → Bool) (after : Bool) :
    isGrouped isDigit after cs = true := by
  induction cs generalizing after with
  | nil => rfl
  | cons c cs ih =>
    have digit := digits c List.mem_cons_self
    rw [isGrouped, if_neg (ne_of_isDigit digit rfl)]
    exact ih (fun c mem => digits c (List.mem_cons_of_mem _ mem)) _

/-- A fact about the ten digits holds of every digit. -/
theorem of_digit {P : Char → Bool} (ten : ∀ n < 58, 48 ≤ n → P (Char.ofNat n) = true)
    (digit : c.isDigit = true) : P c = true := by
  have bounds : 48 ≤ c.toNat ∧ c.toNat ≤ 57 := by simpa [Char.isDigit, UInt32.le_iff_toNat_le] using digit
  have fact := ten c.toNat (by omega) bounds.1
  rwa [Char.ofNat_toNat] at fact

theorem isDigitOf_ten (digit : c.isDigit = true) : Text.isDigitOf 10 c = true := by
  refine of_digit ?_ digit
  decide

theorem readDecimal_digits (digits : ∀ c ∈ cs, c.isDigit = true) (nonempty : cs ≠ [])
    (canonical : cs.head? = some '0' → cs.length = 1) :
    readDecimal none cs = some (integerValue (Text.valueOf 10 cs)) := by
  have grouped := isGrouped_digits digits (Text.isDigitOf 16) false
  have ungrouped : ungroup cs = cs :=
    List.filter_eq_self.mpr fun c mem => by simpa using ne_of_isDigit (digits c mem) (d := '_') rfl
  have inBase : cs.all (Text.isDigitOf 10) = true := List.all_eq_true.mpr fun c mem => isDigitOf_ten (digits c mem)
  have tail : cs.dropWhile Char.isDigit = [] := List.dropWhile_eq_nil_iff.mpr digits
  simpa [readDecimal, nonempty, tail, grouped, ungrouped, integerOf, inBase] using canonical

theorem not_mem_digits (digits : ∀ c ∈ cs, c.isDigit = true) (d : Char) (other : d.isDigit = false) : d ∉ cs :=
  fun mem => ne_of_isDigit (digits d mem) other rfl

theorem readNumber_digits (digits : ∀ c ∈ cs, c.isDigit = true) : readNumber cs = readDecimal none cs := by
  have without := not_mem_digits digits
  have sign : splitSign cs = (none, cs) := by
    rw [splitSign]
    · rintro ds rfl
      exact without '-' rfl List.mem_cons_self
    · rintro ds rfl
      exact without '+' rfl List.mem_cons_self
  have number : (cs = "inf".toList || cs = "nan".toList) = false := by
    simp only [Bool.or_eq_false_iff, decide_eq_false_iff_not]
    constructor
    all_goals
      rintro rfl
      exact without 'n' rfl (by decide)
  have whole : cs.any (fun c => c = '.' || c = 'e' || c = 'E') = false := by
    simp only [List.any_eq_false, Bool.or_eq_true, decide_eq_true_eq]
    rintro c mem ((rfl | rfl) | rfl)
    all_goals exact without _ rfl mem
  rw [readNumber]
  · simp only [sign, number, whole, Bool.false_eq_true, if_false]
  all_goals
    rintro ds rfl
    exact without _ rfl (List.mem_cons_of_mem _ List.mem_cons_self)

theorem readScalar_digits (digits : ∀ c ∈ cs, c.isDigit = true) (nonempty : cs ≠ [])
    (canonical : cs.head? = some '0' → cs.length = 1) :
    readScalar cs = some (integerValue (Text.valueOf 10 cs)) := by
  have notTrue : cs ≠ "true".toList := by
    rintro rfl
    exact not_mem_digits digits 't' rfl (by decide)
  have notFalse : cs ≠ "false".toList := by
    rintro rfl
    exact not_mem_digits digits 'f' rfl (by decide)
  rw [readScalar, if_neg notTrue, if_neg notFalse, isDatetime_digits digits, if_neg (by decide),
    readNumber_digits digits, readDecimal_digits digits nonempty canonical]

/-- The digits of a number denote it. -/
theorem readScalar_toDigits {n : Nat} (small : n < Nat.pow 2 128) :
    readScalar (Nat.toDigits 10 n) = some (.integer n) := by
  have digits : ∀ c ∈ Nat.toDigits 10 n, c.isDigit = true := fun c mem =>
    Nat.isDigit_of_mem_toDigits (by decide) (by decide) mem
  have held : (-(Nat.pow 2 127 : Nat) ≤ (n : Int) && (n : Int) < (Nat.pow 2 128 : Nat)) = true := by
    rw [Bool.and_eq_true, decide_eq_true_eq, decide_eq_true_eq]
    omega
  have canonical : (Nat.toDigits 10 n).head? = some '0' → (Nat.toDigits 10 n).length = 1 := by
    intro zero
    obtain rfl : n = 0 := by_contra fun pos => head?_toDigits pos zero
    rfl
  rw [readScalar_digits digits Nat.toDigits_ne_nil canonical, valueOf_ten digits, Nat.ofDigitChars_ten_toDigits,
    integerValue, if_pos held]

/-! ## Values -/

theorem splitScalar_word (word : ∀ c ∈ cs, isScalarChar c = true) :
    splitScalar (cs ++ '\n' :: rest) = (cs, '\n' :: rest) := by
  have stop : isScalarChar '\n' = false := by decide
  simp [splitScalar, List.takeWhile_append_of_pos word, List.dropWhile_append_of_pos word, stop]

theorem append_cons_ne_cons {d e : Char} (other : d ≠ e) (absent : d ∉ cs) (tail : List Char) :
    cs ++ e :: rest ≠ d :: tail := by
  intro same
  match cs with
  | [] => exact other (List.cons.inj same).1.symm
  | c :: cs => exact absent (by simp [(List.cons.inj same).1])

/-- The characters of an unquoted value that is no string. -/
def isWordChar (c : Char) : Bool := isScalarChar c && c ≠ '"' && c ≠ '\''

theorem readValue_word {v : Value} (fuel depth : Nat) (word : ∀ c ∈ cs, isWordChar c = true)
    (value : readScalar cs = some v) :
    readValue (fuel + 1) depth (cs ++ '\n' :: rest) = some (v, '\n' :: rest) := by
  have scalar : ∀ c ∈ cs, isScalarChar c = true := by
    intro c mem
    have := word c mem
    simp only [isWordChar, Bool.and_eq_true] at this
    exact this.1.1
  have absent : ∀ d, isWordChar d = false → d ∉ cs := fun d other mem => by simp [word d mem] at other
  rw [readValue]
  · simp [splitScalar_word scalar, value]
  all_goals exact append_cons_ne_cons (by decide) (absent _ (by decide))

theorem isWordChar_digit (digit : c.isDigit = true) : isWordChar c = true := by
  refine of_digit (P := isWordChar) ?_ digit
  decide

/-- Characters of a class that has no blanks are visible. -/
theorem isSpace_eq_false {P : Char → Bool} (member : P c = true) (blank : P ' ' = false) (tab : P '\t' = false) :
    isSpace c = false := by
  rw [Bool.eq_false_iff]
  intro space
  obtain rfl | rfl : c = ' ' ∨ c = '\t' := by simpa [isSpace] using space
  · simp [blank] at member
  · simp [tab] at member

theorem skipSpaces_word (word : ∀ c ∈ cs, isWordChar c = true) :
    skipSpaces (cs ++ '\n' :: rest) = cs ++ '\n' :: rest := by
  match cs with
  | [] => rfl
  | c :: cs =>
    have visible := isSpace_eq_false (word c List.mem_cons_self) (by decide) (by decide)
    simp [skipSpaces, visible]

/-- A value without quotes. -/
theorem Denotes.word {v : Scalar} (denotes : Denotes cs v) (plain : ∀ text, v ≠ .string text) :
    (∀ c ∈ cs, isWordChar c = true) ∧ readScalar cs = some v.value := by
  cases denotes with
  | boolean b =>
    rw [← List.all_eq_true]
    cases b <;> exact ⟨rfl, rfl⟩
  | integer small =>
    refine ⟨fun c mem => ?_, readScalar_toDigits (small.trans (by decide))⟩
    exact isWordChar_digit (Nat.isDigit_of_mem_toDigits (by decide) (by decide) mem)
  | string => exact absurd rfl (plain _)

theorem Spelled.eq_cons {text : List Char} (spelled : Spelled cs text) :
    ∃ quote ∈ ['"', '\''], ∃ ds, cs = quote :: ds := by
  cases spelled with
  | basic | longBasic => exact ⟨'"', by decide, _, rfl⟩
  | literal | longLiteral => exact ⟨'\'', by decide, _, rfl⟩

theorem Spelled.readValue {text : List Char} (spelled : Spelled cs text) (fuel depth : Nat) :
    Toml.readValue (fuel + 1) depth (cs ++ '\n' :: rest) = some (.string (String.ofList text), '\n' :: rest) := by
  have read : Toml.readString (cs ++ '\n' :: rest) = some (text, '\n' :: rest) := spelled.readString (by simp)
  obtain ⟨quote, mem, ds, rfl⟩ := spelled.eq_cons
  rw [List.cons_append] at read ⊢
  obtain rfl | rfl : quote = '"' ∨ quote = '\'' := by simpa using mem
  all_goals simp [Toml.readValue, read]

/-- What stands between the equals sign and the end of the line is the value. -/
theorem Denotes.readValue {v : Scalar} (denotes : Denotes cs v) (fuel depth : Nat) :
    Toml.readValue (fuel + 1) depth (cs ++ '\n' :: rest) = some (v.value, '\n' :: rest) := by
  cases denotes with
  | string spelled =>
    rw [spelled.readValue, String.ofList_toList]
    rfl
  | boolean b =>
    obtain ⟨word, value⟩ := (Denotes.boolean b).word nofun
    exact readValue_word fuel depth word value
  | integer small =>
    obtain ⟨word, value⟩ := (Denotes.integer small).word nofun
    exact readValue_word fuel depth word value

theorem Denotes.skipSpaces {v : Scalar} (denotes : Denotes cs v) :
    Toml.skipSpaces (cs ++ '\n' :: rest) = cs ++ '\n' :: rest := by
  cases denotes with
  | string spelled =>
    obtain ⟨quote, mem, ds, rfl⟩ := spelled.eq_cons
    obtain rfl | rfl : quote = '"' ∨ quote = '\'' := by simpa using mem
    all_goals rfl
  | boolean b => exact skipSpaces_word ((Denotes.boolean b).word nofun).1
  | integer small => exact skipSpaces_word ((Denotes.integer small).word nofun).1

/-! ## Lines -/

variable {key : String}

theorem isBareKeyChar_of_bare (bare : isBareKey key = true) : ∀ c ∈ key.toList, isBareKeyChar c = true := by
  simp only [isBareKey, Bool.and_eq_true, List.all_eq_true] at bare
  exact bare.2

theorem not_mem_of_bare (bare : isBareKey key = true) {d : Char} (other : isBareKeyChar d = false) :
    d ∉ key.toList := by
  intro mem
  simp [isBareKeyChar_of_bare bare d mem] at other

theorem exists_cons_of_bare (bare : isBareKey key = true) : ∃ c cs, key.toList = c :: cs := by
  cases chars : key.toList with
  | nil => simp [isBareKey, chars] at bare
  | cons c cs => exact ⟨c, cs, rfl⟩

theorem skipSpaces_bare (bare : isBareKey key = true) (rest : List Char) :
    skipSpaces (key.toList ++ rest) = key.toList ++ rest := by
  obtain ⟨c, cs, chars⟩ := exists_cons_of_bare bare
  have first := isBareKeyChar_of_bare bare c (by simp [chars])
  have visible := isSpace_eq_false first (by decide) (by decide)
  simp [skipSpaces, chars, visible]

theorem finishLine_bare (bare : isBareKey key = true) (rest : List Char) : finishLine (key.toList ++ rest) = none := by
  rw [finishLine, skipSpaces_bare bare]
  obtain ⟨c, cs, chars⟩ := exists_cons_of_bare bare
  have other : ∀ d, isBareKeyChar d = false → c ≠ d := by
    rintro d stop rfl
    exact not_mem_of_bare bare stop (by simp [chars])
  simp [chars, other '#' (by decide), other '\n' (by decide), other '\r' (by decide)]

theorem readKeyPart_bare (bare : isBareKey key = true) {d : Char} (stop : isBareKeyChar d = false)
    (quote : d ≠ '"' ∧ d ≠ '\'') : readKeyPart (key.toList ++ d :: rest) = some (key, d :: rest) := by
  obtain ⟨c, cs, chars⟩ := exists_cons_of_bare bare
  have nonempty : key.toList ≠ [] := by simp [chars]
  have word := isBareKeyChar_of_bare bare
  rw [readKeyPart]
  · simp [List.takeWhile_append_of_pos word, List.dropWhile_append_of_pos word, stop, nonempty]
  · exact append_cons_ne_cons quote.1.symm (not_mem_of_bare bare (by decide))
  · exact append_cons_ne_cons quote.2.symm (not_mem_of_bare bare (by decide))

theorem readKey_heading (bare : isBareKey key = true) :
    readKey (key.toList ++ ']' :: rest) = some ([], key, ']' :: rest) := by
  rw [readKey, nestingLimit, readKeyParts, skipSpaces_bare bare, readKeyPart_bare bare (by decide) (by decide)]
  simp [skipSpaces, isSpace]

theorem readKey_entry (bare : isBareKey key = true) :
    readKey (key.toList ++ ' ' :: '=' :: rest) = some ([], key, '=' :: rest) := by
  rw [readKey, nestingLimit, readKeyParts, skipSpaces_bare bare, readKeyPart_bare bare (by decide) (by decide)]
  simp [skipSpaces, isSpace]

namespace Draft

theorem readLine_blank (d : Draft) (rest : List Char) : d.readLine ('\n' :: rest) = some (d, rest) := rfl

theorem readLine_heading {d e : Draft} (bare : isBareKey key = true)
    (opened : d.openHeading Entries.openTable [] key = some e) :
    d.readLine (headingText key rest) = some (e, rest) := by
  -- no second bracket follows, so that this is not the heading of an array of tables
  have front : ∀ tail, key.toList ++ ']' :: '\n' :: rest ≠ '[' :: tail :=
    append_cons_ne_cons (by decide) (not_mem_of_bare bare (by decide))
  have finish : finishLine ('\n' :: rest) = some rest := rfl
  have visible : skipSpaces (headingText key rest) = '[' :: (key.toList ++ ']' :: '\n' :: rest) := rfl
  rw [readLine, visible]
  simp [readKey_heading bare, opened, finish]

theorem readLine_entry {d e : Draft} {v : Scalar} (bare : isBareKey key = true) (value : Denotes cs v)
    (defined : d.define [] key v.value = some e) : d.readLine (entryText key cs rest) = some (e, rest) := by
  have finish : finishLine ('\n' :: rest) = some rest := rfl
  have mark : readKeyMark skipSpaces (key.toList ++ ' ' :: '=' :: ' ' :: (cs ++ '\n' :: rest)) =
      some ([], key, cs ++ '\n' :: rest) := by
    have equals : skipSpaces ('=' :: ' ' :: (cs ++ '\n' :: rest)) = '=' :: ' ' :: (cs ++ '\n' :: rest) := rfl
    have blank : skipSpaces (' ' :: (cs ++ '\n' :: rest)) = cs ++ '\n' :: rest := value.skipSpaces
    simp [readKeyMark, readKey_entry bare, equals, blank]
  have front : ∀ tail, key.toList ++ ' ' :: '=' :: ' ' :: (cs ++ '\n' :: rest) ≠ '[' :: tail :=
    append_cons_ne_cons (by decide) (not_mem_of_bare bare (by decide))
  rw [entryText, readLine, skipSpaces_bare bare]
  split
  · exact absurd ‹_› (front _)
  · exact absurd ‹_› (front _)
  · simp [finishLine_bare bare, mark, value.readValue, defined, finish]

/-! ## Drafts of plain documents -/

/-- What the reader knows after the lines of a document: its tables, of which the last one is open. -/
def ofDocument (d : Document) : Draft := ⟨d.entries, d.getLast?.toList.map Prod.fst⟩

/-- The table of a section. -/
def tableOf (es : List (String × Scalar)) : Value := .table .header (es.map fun e => (e.1, e.2.value))

theorem ofDocument_concat (d : Document) (name : String) (es : List (String × Scalar)) :
    ofDocument (d ++ [(name, es)]) = ⟨d.entries ++ [(name, tableOf es)], [name]⟩ := by
  simp [ofDocument, Document.entries, tableOf]

theorem ne_of_fresh {d : Document} {name : String} (fresh : name ∉ d.map Prod.fst) : ∀ e ∈ d.entries, e.1 ≠ name := by
  intro e mem
  obtain ⟨t, there, rfl⟩ := List.mem_map.mp mem
  rintro rfl
  exact fresh (List.mem_map_of_mem there)

theorem get?_fresh {es : Entries} {name : String} (fresh : ∀ e ∈ es, e.1 ≠ name) : es.get? name = none :=
  List.lookup_eq_none_iff.mpr fun e mem => by simpa using (fresh e mem).symm

theorem get?_concat {es : Entries} {name : String} (fresh : ∀ e ∈ es, e.1 ≠ name) (v : Value) :
    Entries.get? (es ++ [(name, v)]) name = some v := by
  rw [Entries.get?, List.lookup_append, show es.lookup name = none from get?_fresh fresh]
  simp

theorem replace_concat {es : Entries} {name : String} (fresh : ∀ e ∈ es, e.1 ≠ name) (u v : Value) :
    Entries.replace (es ++ [(name, u)]) name v = es ++ [(name, v)] := by
  have front : es.map (fun e => if e.1 = name then (name, v) else e) = es := by
    conv_rhs => rw [← List.map_id es]
    exact List.map_congr_left fun e mem => if_neg (fresh e mem)
  rw [Entries.replace, List.map_append, front]
  simp

theorem openHeading_ofDocument {d : Document} {name : String} (fresh : name ∉ d.map Prod.fst) :
    (ofDocument d).openHeading Entries.openTable [] name = some (ofDocument (d ++ [(name, [])])) := by
  have missing := get?_fresh (ne_of_fresh fresh)
  rw [ofDocument_concat]
  simp [openHeading, Entries.descend, Entries.openTable, ofDocument, missing, Entries.append, tableOf]

theorem define_ofDocument {d : Document} {name : String} {es : List (String × Scalar)} {v : Scalar}
    (fresh : name ∉ d.map Prod.fst) (new : key ∉ es.map Prod.fst) :
    (ofDocument (d ++ [(name, es)])).define [] key v.value = some (ofDocument (d ++ [(name, es ++ [(key, v)])])) := by
  have missing : Entries.get? (es.map fun e => (e.1, e.2.value)) key = none := by
    refine get?_fresh fun e mem same => ?_
    obtain ⟨x, there, rfl⟩ := List.mem_map.mp mem
    exact new (same ▸ List.mem_map_of_mem there)
  have defined : Entries.defineAt [] key v.value .header (es.map fun e => (e.1, e.2.value)) =
      some ((es ++ [(key, v)]).map fun e => (e.1, e.2.value)) := by
    simp [Entries.defineAt, Entries.descend, Entries.define, missing, Entries.append]
  have found := get?_concat (ne_of_fresh fresh) (tableOf es)
  rw [ofDocument_concat, ofDocument_concat]
  simp only [define, Entries.descend, found]
  simp [tableOf, defined, replace_concat (ne_of_fresh fresh)]

/-- A line is read before the lines after it. -/
theorem readLines_of_line {d e f : Draft} (line : d.readLine cs = some (e, rest)) (shorter : rest.length < cs.length)
    (more : ∀ fuel, rest.length ≤ fuel → e.readLines fuel rest = some f) (fuel : Nat) (enough : cs.length ≤ fuel) :
    d.readLines fuel cs = some f := by
  match cs, fuel with
  | c :: cs, 0 => simp at enough
  | c :: cs, fuel + 1 =>
    rw [readLines, line]
    · exact more fuel (by omega)
    · exact List.cons_ne_nil c cs

end Draft

/-! ## Documents -/

theorem length_lt_entryText (key : String) (value rest : List Char) :
    rest.length < (entryText key value rest).length := by
  simp only [entryText, List.length_append, List.length_cons]
  omega

theorem length_lt_headingText (name : String) (rest : List Char) : rest.length < (headingText name rest).length := by
  simp only [headingText, List.length_append, List.length_cons]
  omega

/-- Each line of a text changes the draft of the reader as it changes the document. -/
theorem Lines.readLines {d e : Document} (lines : Lines d cs e) (distinct : (d.map Prod.fst).Nodup) (fuel : Nat)
    (enough : cs.length ≤ fuel) : (Draft.ofDocument d).readLines fuel cs = some (Draft.ofDocument e) := by
  induction lines generalizing fuel with
  | nil d => cases fuel <;> rfl
  | @blank d e rest more ih =>
    exact Draft.readLines_of_line (Draft.readLine_blank _ rest) (Nat.lt_succ_self _) (ih distinct) fuel enough
  | @heading d e name rest bare fresh more ih =>
    have line : (Draft.ofDocument d).readLine (headingText name rest) = some (_, rest) :=
      Draft.readLine_heading bare (Draft.openHeading_ofDocument fresh)
    refine Draft.readLines_of_line line (length_lt_headingText _ _) (ih ?_) fuel enough
    rw [List.map_append, List.nodup_append]
    refine ⟨distinct, List.pairwise_singleton _ _, fun a mem b last same => fresh ?_⟩
    have last : b = name := List.mem_singleton.mp last
    rwa [← last, ← same]
  | @entry d e name key es v cs rest bare new value more ih =>
    have line : (Draft.ofDocument (d ++ [(name, es)])).readLine (entryText key cs rest) = some (_, rest) :=
      Draft.readLine_entry bare value (Draft.define_ofDocument (fresh_of_nodup distinct) new)
    refine Draft.readLines_of_line line (length_lt_entryText _ _ _) (ih ?_) fuel enough
    simpa using distinct

/-- A document begins with a heading, after any number of blank lines. -/
theorem Lines.head?_eq {d e : Document} (lines : Lines d cs e) (start : d = []) :
    cs.head? = none ∨ cs.head? = some '\n' ∨ cs.head? = some '[' := by
  cases lines with
  | nil => exact .inl rfl
  | blank => exact .inr (.inl rfl)
  | heading => exact .inr (.inr rfl)
  | entry => simp at start

/-- The reader finds in a text what the text tells. -/
theorem Tells.read_eq {text : String} {d : Document} (tells : Tells text d) : read text = some d.entries := by
  have lines := Lines.readLines tells List.nodup_nil _ le_rfl
  have front := Lines.head?_eq tells rfl
  unfold read
  split
  · next mark =>
    rw [mark] at front
    simp at front
  · change (Draft.readLines _ (Draft.ofDocument []) _).map Draft.root = _
    rw [lines]
    rfl

theorem library_follows : library.Follows where
  reads := Tells.read_eq
  writes _ := rfl

end Activation.Toml
