import Activation.Proofs.Toml.Grammar
import Mathlib.Tactic.IntervalCases

/-! # Written strings and the reader of strings

The writer of strings picks one of four forms, and a string in any of them is read for what it spells.

Between double quotes both go character by character. Between triple quotes a quote cannot be read alone, as it depends
on the next two whether it belongs to the text: the inductions carry the quotes that have just been written along, of
which there are at most two.

* `spelled_writeString`: what is written spells the text.
* `Spelled.readString`: what spells a text is read as that text, whatever stands behind it, as long as no quote touches
  it from behind.
-/

namespace Activation.Toml
open Text (isDigitOf valueOf)
set_option autoImplicit false

/-! ## Written characters -/

theorem fourDigits_spec : ∀ n < 128, (fourDigits n).length = 4 ∧
    (fourDigits n).all (isDigitOf 16) = true ∧ valueOf 16 (fourDigits n) = n := by
  decide +kernel

theorem toNat_lt_of_not_plain {c : Char} (special : ¬ isPlain c = true) : c.toNat < 128 := by
  simp [isPlain] at special
  omega

theorem spelling_escapeChar (c : Char) : Spelling c (escapeChar c) := by
  unfold escapeChar
  split_ifs with quote backslash newline tab ret backspace feed plain
  any_goals exact .short (by subst c; decide)
  · exact .plain plain quote backslash
  · obtain ⟨four, digits, value⟩ := fourDigits_spec c.toNat (toNat_lt_of_not_plain plain)
    match written : fourDigits c.toNat, four with
    | [i, j, k, l], _ =>
      rw [written] at digits value
      exact .point (List.all_eq_true.mp digits) value

variable {c d : Char} {cs text rest : List Char}

/-- No quote and no newline stands at the front of a spelling. -/
theorem Spelling.eq_cons (s : Spelling c cs) : ∃ d ds, cs = d :: ds ∧ isPlain d = true ∧ d ≠ '"' := by
  cases s with
  | plain plain quote => exact ⟨_, _, rfl, plain, quote⟩
  | short => exact ⟨_, _, rfl, by decide, by decide⟩
  | point => exact ⟨_, _, rfl, by decide, by decide⟩

theorem chars_escape (cs : List Char) : Chars (cs.flatMap escapeChar) cs := by
  induction cs with
  | nil => exact .nil
  | cons c cs ih =>
    rw [List.flatMap_cons]
    exact .cons (spelling_escapeChar c) ih

/-! ## Written texts of several lines -/

theorem long_escapeLong (cs : List Char) {run : Nat} (few : run ≤ 2) :
    Long '"' LongSpelling run (escapeLong run cs) cs := by
  induction cs generalizing run with
  | nil => exact .nil
  | cons c cs ih =>
    have next := ih (Nat.zero_le 2)
    rw [escapeLong]
    split_ifs with quote third newline
    · subst quote
      have escape : LongSpelling '"' ['\\', '"'] := .inl (.short (by decide))
      exact .other escape next
    · subst quote
      exact .quote (by omega) (ih (by omega))
    · exact .other (.inr ⟨newline, rfl⟩) next
    · exact .other (.inl (spelling_escapeChar c)) next

theorem le_longestRun (quote : Char) (run : Nat) (cs : List Char) : run ≤ longestRun quote run cs := by
  induction cs generalizing run with
  | nil => exact le_rfl
  | cons c cs ih =>
    rw [longestRun]
    split_ifs
    · exact (Nat.le_succ run).trans (ih _)
    · exact le_max_left _ _

theorem long_of_fits (cs : List Char) (fits : ∀ c ∈ cs, isPlain c = true ∨ c = '\n') {run : Nat}
    (few : longestRun '\'' run cs ≤ 2) : Long '\'' LiteralSpelling run cs cs := by
  induction cs generalizing run with
  | nil => exact .nil
  | cons c cs ih =>
    have ih := @ih fun c mem => fits c (List.mem_cons_of_mem _ mem)
    rw [longestRun] at few
    split_ifs at few with quote
    · subst quote
      have more : run + 1 ≤ 2 := (le_longestRun '\'' (run + 1) cs).trans few
      exact .quote (Nat.lt_of_succ_le more) (ih few)
    · have alone : LiteralSpelling c [c] :=
        ⟨(fits c List.mem_cons_self).imp_left fun plain => ⟨plain, quote⟩, rfl⟩
      exact .other alone (ih (le_of_max_le_right few))

/-- A text of several lines begins on a line of its own, and no other does. -/
theorem lead_leadingNewline (cs : List Char) {body : List Char} (flat : '\n' ∉ cs → body.head? ≠ some '\n') :
    Lead (leadingNewline cs) body := by
  unfold leadingNewline
  split_ifs with lines
  · exact .inl rfl
  · exact .inr ⟨rfl, flat (by simpa using lines)⟩

theorem head?_escapeLong (flat : '\n' ∉ cs) : (escapeLong 0 cs).head? ≠ some '\n' := by
  match cs with
  | [] => simp [escapeLong]
  | c :: cs =>
    have newline : c ≠ '\n' := (List.ne_of_not_mem_cons flat).symm
    by_cases quote : c = '"'
    · simp [escapeLong, quote]
    · obtain ⟨d, ds, escape, plain, -⟩ := (spelling_escapeChar c).eq_cons
      have other : d ≠ '\n' := by
        rintro rfl
        exact absurd plain (by decide)
      simp [escapeLong, quote, newline, escape, other]

/-! ## Written strings -/

theorem not_mem_of_longestRun {quote : Char} (absent : longestRun quote 0 cs = 0) : quote ∉ cs := by
  induction cs with
  | nil => exact List.not_mem_nil
  | cons c cs ih =>
    rw [longestRun] at absent
    split_ifs at absent with here
    · have := le_longestRun quote (0 + 1) cs
      omega
    · have : longestRun quote 0 cs = 0 := by omega
      exact List.not_mem_cons_of_ne_of_not_mem (Ne.symm here) (ih this)

theorem formOf_literal (form : formOf cs = .literal) : ∀ c ∈ cs, isPlain c = true ∧ c ≠ '\'' := by
  simp only [formOf] at form
  split_ifs at form with basic literal
  simp only [Bool.and_eq_true, Bool.not_eq_true', List.any_eq_false, decide_eq_true_eq] at literal
  obtain ⟨⟨control, newline⟩, single⟩ := literal
  refine fun c mem => ⟨?_, ne_of_mem_of_not_mem mem (not_mem_of_longestRun single)⟩
  by_contra plain
  exact control c mem ⟨Bool.eq_false_iff.mpr plain, newline c mem⟩

theorem formOf_longLiteral (form : formOf cs = .longLiteral) :
    (∀ c ∈ cs, isPlain c = true ∨ c = '\n') ∧ longestRun '\'' 0 cs ≤ 2 := by
  simp only [formOf] at form
  split_ifs at form with basic literal longBasic longLiteral
  simp only [Bool.and_eq_true, Bool.not_eq_true', List.any_eq_false, decide_eq_true_eq] at longLiteral
  obtain ⟨control, single⟩ := longLiteral
  refine ⟨fun c mem => ?_, single⟩
  by_contra both
  exact control c mem ⟨Bool.eq_false_iff.mpr (mt Or.inl both), mt Or.inr both⟩

/-- What is written spells the text. -/
theorem spelled_writeString (cs : List Char) : Spelled (writeString cs) cs := by
  unfold writeString
  cases form : formOf cs with
  | basic => exact .basic (chars_escape cs)
  | literal => exact .literal (formOf_literal form)
  | longBasic => exact .longBasic (lead_leadingNewline cs head?_escapeLong) (long_escapeLong cs (Nat.zero_le 2))
  | longLiteral =>
    obtain ⟨fits, few⟩ := formOf_longLiteral form
    have start : Lead (leadingNewline cs) cs :=
      lead_leadingNewline cs fun flat first => flat (List.mem_of_head? first)
    exact .longLiteral start (long_of_fits cs fits few)

/-! ## Reading characters between double quotes -/

theorem shortEscape_of_mem (short : (d, c) ∈ escapes) : shortEscape d = some c := by
  simp only [escapes, List.mem_cons, Prod.mk.injEq, List.not_mem_nil, or_false] at short
  rcases short with ⟨rfl, rfl⟩ | ⟨rfl, rfl⟩ | ⟨rfl, rfl⟩ | ⟨rfl, rfl⟩ | ⟨rfl, rfl⟩ | ⟨rfl, rfl⟩ | ⟨rfl, rfl⟩ <;> rfl

theorem readCodePoint_of_value {digits : List Char} (hex : ∀ d ∈ digits, isDigitOf 16 d = true)
    (value : valueOf 16 digits = c.toNat) : readCodePoint digits = some c := by
  have all : digits.all (isDigitOf 16) = true := List.all_eq_true.mpr hex
  have valid : c.toNat.isValidChar := c.valid
  simp [readCodePoint, all, value, valid, Char.ofNat_toNat]

theorem readBasic_plain (plain : isPlain c = true) (quote : c ≠ '"') (backslash : c ≠ '\\')
    (read : readBasic cs = some (text, rest)) : readBasic (c :: cs) = some (c :: text, rest) := by
  rw [readBasic.eq_def]
  split <;> simp_all

theorem ne_of_shortEscape {e : Char} (short : shortEscape d = some c) (void : shortEscape e = none) : d ≠ e := by
  rintro rfl
  simp [short] at void

theorem readBasic_short (short : shortEscape d = some c) (read : readBasic cs = some (text, rest)) :
    readBasic ('\\' :: d :: cs) = some (c :: text, rest) := by
  have notX : d ≠ 'x' := ne_of_shortEscape short rfl
  have notU : d ≠ 'u' := ne_of_shortEscape short rfl
  have notLongU : d ≠ 'U' := ne_of_shortEscape short rfl
  simp [readBasic, notX, notU, notLongU, short, read]

theorem Spelling.readBasic {spelled : List Char} (s : Spelling c spelled)
    (read : readBasic cs = some (text, rest)) : Toml.readBasic (spelled ++ cs) = some (c :: text, rest) := by
  cases s with
  | plain plain quote backslash => exact readBasic_plain plain quote backslash read
  | short short => exact readBasic_short (shortEscape_of_mem short) read
  | point digits point => simp [Toml.readBasic, readCodePoint_of_value digits point, read]

theorem Chars.readBasic (chars : Chars cs text) (rest : List Char) :
    Toml.readBasic (cs ++ '"' :: rest) = some (text, rest) := by
  induction chars with
  | nil => simp [Toml.readBasic]
  | cons spelling _ ih =>
    rw [List.append_assoc]
    exact spelling.readBasic ih

theorem readLongBasic_short (short : shortEscape d = some c) (read : readLongBasic false cs = some (text, rest)) :
    readLongBasic false ('\\' :: d :: cs) = some (c :: text, rest) := by
  have notX : d ≠ 'x' := ne_of_shortEscape short rfl
  have notU : d ≠ 'u' := ne_of_shortEscape short rfl
  have notLongU : d ≠ 'U' := ne_of_shortEscape short rfl
  have blank : isSpace d = false := by
    simp [isSpace, ne_of_shortEscape short (e := ' ') rfl, ne_of_shortEscape short (e := '\t') rfl]
  -- an escape is no backslash at the end of a line
  have inLine : startsLine ((d :: cs).dropWhile isSpace) = false := by
    simp [blank, startsLine, ne_of_shortEscape short (e := '\n') rfl, ne_of_shortEscape short (e := '\r') rfl]
  simp [readLongBasic, notX, notU, notLongU, inLine, short, read]

theorem readLongBasic_plain (plain : isPlain c = true) (quote : c ≠ '"') (backslash : c ≠ '\\')
    (read : readLongBasic false cs = some (text, rest)) :
    readLongBasic false (c :: cs) = some (c :: text, rest) := by
  rw [readLongBasic.eq_def]
  split <;> simp_all

theorem Spelling.readLongBasic {spelled : List Char} (s : Spelling c spelled)
    (read : readLongBasic false cs = some (text, rest)) :
    Toml.readLongBasic false (spelled ++ cs) = some (c :: text, rest) := by
  cases s with
  | plain plain quote backslash => exact readLongBasic_plain plain quote backslash read
  | short short => exact readLongBasic_short (shortEscape_of_mem short) read
  | point digits point => simp [Toml.readLongBasic, readCodePoint_of_value digits point, read]

theorem readLongBasic_newline (read : readLongBasic false cs = some (text, rest)) :
    readLongBasic false ('\n' :: cs) = some ('\n' :: text, rest) := by
  simp [readLongBasic, read, startsLine]

/-! ## Reading quotes between triple quotes -/

/-- A reader that takes a quote as it stands unless two more follow does so with up to two quotes in front of
something else. -/
theorem read_quotes {read : List Char → Option (List Char × List Char)} {quote : Char}
    (alone : ∀ {cs text rest}, ¬ [quote, quote] <+: cs → read cs = some (text, rest) →
      read (quote :: cs) = some (quote :: text, rest))
    {run : Nat} (few : run ≤ 2) (other : d ≠ quote) (next : read (d :: cs) = some (text, rest)) :
    read (List.replicate run quote ++ d :: cs) = some (List.replicate run quote ++ text, rest) := by
  have one : read (quote :: d :: cs) = some (quote :: text, rest) := alone (by simp [other.symm]) next
  interval_cases run
  · exact next
  · exact one
  · exact alone (by simp [other.symm]) one

theorem closeTriple_quotes {quote : Char} {run : Nat} (few : run ≤ 2) (apart : rest.head? ≠ some quote) :
    closeTriple quote (List.replicate run quote ++ rest) = (List.replicate run quote, rest) := by
  match rest with
  | [] => interval_cases run <;> simp [closeTriple]
  | [d] => interval_cases run <;> simp_all [closeTriple]
  | d :: e :: ds => interval_cases run <;> simp_all [closeTriple]

/-- Quotes that touch the closing ones may as well follow them. -/
theorem quotes_triple (quote : Char) (run : Nat) (rest : List Char) :
    List.replicate run quote ++ (triple quote ++ rest) = triple quote ++ (List.replicate run quote ++ rest) := by
  have swap : List.replicate run quote ++ triple quote = triple quote ++ List.replicate run quote := by
    change List.replicate run quote ++ List.replicate 3 quote = List.replicate 3 quote ++ List.replicate run quote
    rw [List.replicate_append_replicate, List.replicate_append_replicate, Nat.add_comm]
  rw [← List.append_assoc, swap, List.append_assoc]

/-- A reader that closes at triple quotes, takes up to two quotes as they stand and reads everything else as it is
spelled reads a whole text. -/
theorem Long.read (read : List Char → Option (List Char × List Char)) {quote : Char}
    {content : Char → List Char → Prop} (apart : rest.head? ≠ some quote)
    (close : ∀ ds, read (triple quote ++ ds) = some (closeTriple quote ds))
    (alone : ∀ {cs text rest}, ¬ [quote, quote] <+: cs → read cs = some (text, rest) →
      read (quote :: cs) = some (quote :: text, rest))
    (spelled : ∀ {c s cs text rest}, content c s → read cs = some (text, rest) →
      read (s ++ cs) = some (c :: text, rest) ∧ ∃ d ds, s = d :: ds ∧ d ≠ quote)
    {run : Nat} (long : Long quote content run cs text) (few : run ≤ 2) :
    read (List.replicate run quote ++ (cs ++ (triple quote ++ rest))) =
      some (List.replicate run quote ++ text, rest) := by
  induction long with
  | nil =>
    rw [List.nil_append, quotes_triple, close, closeTriple_quotes few apart, List.append_nil]
  | quote fewer _ ih => simpa [List.replicate_succ', List.append_assoc] using ih fewer
  | other spelling _ ih =>
    have next := ih (Nat.zero_le 2)
    rw [List.replicate_zero, List.nil_append, List.nil_append] at next
    obtain ⟨here, d, ds, rfl, other⟩ := spelled spelling next
    rw [List.cons_append] at here
    rw [List.append_assoc, List.cons_append]
    exact read_quotes alone few other here

theorem readLongBasic_quote (alone : ¬ ['"', '"'] <+: cs) (read : readLongBasic false cs = some (text, rest)) :
    readLongBasic false ('"' :: cs) = some ('"' :: text, rest) := by
  rw [readLongBasic]
  · simp [isPlain, read]
  · rintro ds - rfl
    simp at alone
  all_goals simp

theorem LongSpelling.readLongBasic {spelled : List Char} (spelling : LongSpelling c spelled)
    (read : readLongBasic false cs = some (text, rest)) :
    Toml.readLongBasic false (spelled ++ cs) = some (c :: text, rest) ∧ ∃ d ds, spelled = d :: ds ∧ d ≠ '"' := by
  rcases spelling with spelling | ⟨rfl, rfl⟩
  · obtain ⟨d, ds, front, -, other⟩ := spelling.eq_cons
    exact ⟨spelling.readLongBasic read, d, ds, front, other⟩
  · exact ⟨readLongBasic_newline read, '\n', [], rfl, by decide⟩

theorem readLongLiteral_quote (alone : ¬ ['\'', '\''] <+: cs) (read : readLongLiteral cs = some (text, rest)) :
    readLongLiteral ('\'' :: cs) = some ('\'' :: text, rest) := by
  rw [readLongLiteral]
  · simp [isPlain, read]
  · rintro ds - rfl
    simp at alone

theorem LiteralSpelling.readLongLiteral {spelled : List Char} (spelling : LiteralSpelling c spelled)
    (read : readLongLiteral cs = some (text, rest)) :
    Toml.readLongLiteral (spelled ++ cs) = some (c :: text, rest) ∧ ∃ d ds, spelled = d :: ds ∧ d ≠ '\'' := by
  obtain ⟨fits, rfl⟩ := spelling
  have other : c ≠ '\'' := by
    rcases fits with ⟨-, other⟩ | rfl
    · exact other
    · decide
  have taken : (isPlain c || startsLine (c :: cs)) = true := by
    rcases fits with ⟨plain, -⟩ | rfl
    · simp [plain]
    · simp [startsLine]
  refine ⟨?_, c, [], rfl, other⟩
  rw [List.singleton_append, Toml.readLongLiteral.eq_def]
  split <;> simp_all

/-! ## Reading strings in any form -/

theorem readLiteral_of_plain (plain : ∀ c ∈ cs, isPlain c = true ∧ c ≠ '\'') :
    readLiteral (cs ++ '\'' :: rest) = some (cs, rest) := by
  induction cs with
  | nil => simp [readLiteral]
  | cons c cs ih =>
    obtain ⟨here, quote⟩ := plain c List.mem_cons_self
    have next := ih fun c mem => plain c (List.mem_cons_of_mem _ mem)
    rw [List.cons_append, readLiteral]
    · simp [here, next]
    · exact quote

theorem dropNewline_of_head (newline : cs.head? ≠ some '\n') (ret : cs.head? ≠ some '\r') : dropNewline cs = cs := by
  rw [dropNewline.eq_def]
  split <;> simp_all

/-- The newline in front of a text of several lines is dropped, and nothing else is. -/
theorem dropNewline_lead {lead : List Char} (start : Lead lead cs) (ret : cs.head? ≠ some '\r') {quote : Char}
    (form : quote = '"' ∨ quote = '\'') :
    dropNewline (lead ++ (cs ++ (triple quote ++ rest))) = cs ++ (triple quote ++ rest) := by
  rcases start with rfl | ⟨rfl, newline⟩
  · rfl
  · rw [List.nil_append]
    match cs with
    | [] => rcases form with rfl | rfl <;> rfl
    | c :: cs => exact dropNewline_of_head newline ret

/-- Raw control characters other than newlines do not occur between triple quotes. -/
theorem Long.head?_ne {quote : Char} {content : Char → List Char → Prop} {run : Nat}
    (long : Long quote content run cs text) (other : quote ≠ '\r')
    (front : ∀ {c s}, content c s → ∃ d ds, s = d :: ds ∧ d ≠ '\r') : cs.head? ≠ some '\r' := by
  cases long with
  | nil => simp
  | quote => simpa using other
  | other spelling =>
    obtain ⟨d, ds, rfl, visible⟩ := front spelling
    simpa using visible

theorem ne_of_isPlain (plain : isPlain c = true) (special : isPlain d = false) : c ≠ d := by
  rintro rfl
  simp [plain] at special

theorem LongSpelling.front {spelled : List Char} (spelling : LongSpelling c spelled) :
    ∃ d ds, spelled = d :: ds ∧ d ≠ '\r' := by
  rcases spelling with spelling | ⟨rfl, rfl⟩
  · obtain ⟨d, ds, rfl, plain, -⟩ := spelling.eq_cons
    exact ⟨d, ds, rfl, ne_of_isPlain plain (by decide)⟩
  · exact ⟨'\n', [], rfl, by decide⟩

theorem LiteralSpelling.front {spelled : List Char} (spelling : LiteralSpelling c spelled) :
    ∃ d ds, spelled = d :: ds ∧ d ≠ '\r' := by
  obtain ⟨⟨plain, -⟩ | rfl, rfl⟩ := spelling
  · exact ⟨c, [], rfl, ne_of_isPlain plain (by decide)⟩
  · exact ⟨'\n', [], rfl, by decide⟩

/-- A string on one line does not begin like one between triple quotes, not even an empty string. -/
theorem not_triple {quote : Char} (front : cs.head? ≠ some quote) (apart : rest.head? ≠ some quote)
    (ds : List Char) : cs ++ quote :: rest ≠ quote :: quote :: ds := by
  intro same
  match cs with
  | [] => simp_all
  | c :: cs => simp_all

theorem Chars.head?_ne (chars : Chars cs text) : cs.head? ≠ some '"' := by
  cases chars with
  | nil => simp
  | cons spelling =>
    obtain ⟨d, ds, rfl, -, quote⟩ := spelling.eq_cons
    simpa using quote

/-- What spells a text is read as that text. -/
theorem Spelled.readString (spelled : Spelled cs text) (apart : ∀ quote ∈ ['"', '\''], rest.head? ≠ some quote) :
    Toml.readString (cs ++ rest) = some (text, rest) := by
  have double := apart '"' (by decide)
  have single := apart '\'' (by decide)
  cases spelled with
  | basic body =>
    simp only [List.cons_append, List.append_assoc, List.nil_append]
    rw [Toml.readString]
    · exact body.readBasic rest
    · exact fun ds => not_triple body.head?_ne double ds
  | literal plain =>
    simp only [List.cons_append, List.append_assoc, List.nil_append]
    rw [Toml.readString]
    · exact readLiteral_of_plain plain
    · exact fun ds => not_triple (fun front => (plain _ (List.mem_of_head? front)).2 rfl) single ds
  | @longBasic lead body _ start long =>
    simp only [List.append_assoc]
    change readLongBasic false (dropNewline (lead ++ (body ++ (triple '"' ++ rest)))) = _
    rw [dropNewline_lead start (long.head?_ne (by decide) LongSpelling.front) (.inl rfl)]
    refine Long.read (readLongBasic false) double (fun ds => ?_) readLongBasic_quote
      LongSpelling.readLongBasic long (Nat.zero_le 2)
    simp [triple, readLongBasic]
  | @longLiteral lead body _ start long =>
    simp only [List.append_assoc]
    change readLongLiteral (dropNewline (lead ++ (body ++ (triple '\'' ++ rest)))) = _
    rw [dropNewline_lead start (long.head?_ne (by decide) LiteralSpelling.front) (.inr rfl)]
    refine Long.read readLongLiteral single (fun ds => ?_) readLongLiteral_quote
      LiteralSpelling.readLongLiteral long (Nat.zero_le 2)
    simp [triple, readLongLiteral]

end Activation.Toml
