import QueryHarvest.Proofs.Json.Steps
import QueryHarvest.Proofs.Json.Strings
import QueryHarvest.Proofs.Text.Lines

/-! # Pieces of a text that is read

A character that stands neither between tokens nor in words can only stand in a string. A piece of a
text that begins inside a string, read by itself, has its strings where the text has none: so the keys
of an object in it are made of the characters that stand outside strings.
-/

namespace QueryHarvest.Json

open Text Number

/-- May the character stand outside strings? -/
def standsOutside (c : Char) : Bool :=
  endsBare c || isWordChar c

namespace Reader

section

variable {r next : Reader} {c : Char} {chars : List Char}

/-- Some text completes a value. -/
def Alive (r : Reader) : Prop :=
  ∃ rest last value, r.run rest = some last ∧ last.finish = some value

theorem Alive.before (alive : next.Alive) (read : r.run chars = some next) : r.Alive := by
  obtain ⟨rest, last, value, run, finish⟩ := alive
  exact ⟨chars ++ rest, last, value, by rw [run_append_of_eq read, run], finish⟩

theorem Alive.of_finish {value : Value} (finish : r.finish = some value) : r.Alive :=
  ⟨[], r, value, run_nil r, finish⟩

theorem Alive.before_step (alive : next.Alive) (read : r.step c = some next) : r.Alive :=
  alive.before (by rw [run_cons, read]; rfl : r.run [c] = some next)

theorem Settles.wordChars {after : Reader} (settles : Settles r after) (mode : r.mode = .bare chars) :
    ∀ x ∈ chars, isWordChar x := by
  cases settles with
  | between same => cases same.symm.trans mode
  | word same ended =>
      cases same.symm.trans mode
      obtain ⟨value, word, -⟩ := Option.bind_eq_some_iff.mp ended
      exact fun x member => bare?_chars word x (List.mem_reverse.mpr member)

/-- A word that can be completed is made of the characters of words. -/
theorem Alive.wordChars (alive : r.Alive) (mode : r.mode = .bare chars) :
    ∀ x ∈ chars, isWordChar x := by
  obtain ⟨rest, last, value, run, finish⟩ := alive
  induction rest generalizing r chars with
  | nil =>
      cases run
      obtain ⟨last, settles, -⟩ := finish_eq_some_iff.mp finish
      exact settles.wordChars mode
  | cons c rest ih =>
      rw [run_cons] at run
      obtain ⟨next, step, run⟩ := Option.bind_eq_some_iff.mp run
      rcases step_outside (by rw [mode]; rfl) step with ⟨after, settles, -⟩ | ⟨others, same, -, grown⟩
      · exact settles.wordChars mode
      · cases same.symm.trans mode
        exact (List.forall_mem_cons.mp (ih (by rw [grown]) run)).2

/-- Where a character outside strings leads: a quote into a string, any other not. -/
structure LeadsOn (c : Char) (next : Reader) : Prop where
  stands : standsOutside c
  quote : c = '\x22' → next.mode = .string []
  other : c ≠ '\x22' → next.mode.inString = false

theorem leadsOn_of_begin (begun : r.begin c = some next) (alive : next.Alive) : LeadsOn c next := by
  rw [begin_eq] at begun
  have ends (h : kindOf c ≠ .word) : standsOutside c := by
    rw [standsOutside, endsBare_of_kindOf h, Bool.true_or]
  have unquoted (h : kindOf c ≠ .quote) : c ≠ '\x22' := by
    rintro rfl
    exact h rfl
  cases kind : kindOf c with
  | blank =>
      rw [kind] at begun ends unquoted
      cases begun
      exact ⟨ends nofun, fun quote => absurd quote (unquoted nofun), fun _ => rfl⟩
  | quote =>
      rw [kind] at begun ends
      cases begun
      exact ⟨ends nofun, fun _ => rfl, fun other => absurd (kindOf_quote kind) other⟩
  | mark token =>
      rw [kind] at begun ends unquoted
      refine ⟨ends nofun, fun quote => absurd quote (unquoted nofun), fun _ => ?_⟩
      rw [emit_mode begun]
      rfl
  | word =>
      rw [kind] at begun unquoted
      cases begun
      have inWord := alive.wordChars rfl c (List.mem_singleton_self c)
      refine ⟨?_, fun quote => absurd quote (unquoted nofun), fun _ => rfl⟩
      rw [standsOutside, inWord, Bool.or_true]

theorem leadsOn_of_step (outside : r.mode.inString = false) (read : r.step c = some next)
    (alive : next.Alive) : LeadsOn c next := by
  rcases step_outside outside read with ⟨after, -, begun⟩ | ⟨chars, -, inside, rfl⟩
  · exact leadsOn_of_begin begun alive
  · have inWord := alive.wordChars rfl c (List.mem_cons_self ..)
    refine ⟨?_, ?_, fun _ => rfl⟩
    · rw [standsOutside, inWord, Bool.or_true]
    · rintro rfl
      cases inside

/-- A key that is made of characters that stand outside strings. -/
def PlainKey (key : String) : Prop :=
  ∀ c ∈ key.toList, standsOutside c

/-- If the value is an object, its keys are plain. -/
def PlainKeys (value : Value) : Prop :=
  ∀ fields, value = .object fields → ∀ field ∈ fields, PlainKey field.1

theorem inherited_plainKeys : Inherited PlainKey PlainKeys where
  list _ _ := nofun
  object fields h := by
    rintro _ ⟨⟩ field member
    exact (h field member).1

theorem plainKeys_bare? (occurrence : Occurrence) (chars : List Char) (value : Value)
    (read : bare? occurrence chars = some value) : PlainKeys value := by
  rcases bare?_kinds read with rfl | ⟨_, rfl⟩ | ⟨_, rfl⟩ | ⟨_, rfl⟩ <;> nofun

/-- One reader is in a string exactly where the other is not. The first reads the whole text, and the
second a piece of it alone. -/
inductive Flipped (whole alone : Reader) : Prop where
  | outside {chars : List Char} (mode : whole.mode = .string chars)
      (mode' : alone.mode.inString = false) (keys : alone.progress.Holds PlainKey PlainKeys)
  | inside {chars : List Char} (mode : whole.mode.inString = false)
      (mode' : alone.mode = .string chars) (plain : ∀ c ∈ chars, standsOutside c)
      (keys : alone.progress.Holds PlainKey PlainKeys)

theorem step_keys (outside : r.mode.inString = false) (read : r.step c = some next)
    (keys : r.progress.Holds PlainKey PlainKeys) : next.progress.Holds PlainKey PlainKeys := by
  rcases step_outside outside read with ⟨after, settles, begun⟩ | ⟨chars, -, -, rfl⟩
  · exact begin_holds inherited_plainKeys (settles.holds inherited_plainKeys plainKeys_bare? keys) begun
  · exact keys

/-- Both readers go on by a character, as long as both can be completed. A backslash that one takes as
the beginning of an escape can stand nowhere for the other. -/
theorem flipped_step {alone next' : Reader} (h : Flipped r alone) (read : r.step c = some next)
    (alive : next.Alive) (read' : alone.step c = some next') (alive' : next'.Alive) :
    Flipped next next' := by
  cases h with
  | outside mode mode' keys =>
      have leads := leadsOn_of_step mode' read' alive'
      have keys := step_keys mode' read' keys
      rcases step_string mode read with ⟨quote, emitted⟩ | ⟨rfl, -⟩ | ⟨quote, -, rfl⟩
      · refine .inside ?_ (leads.quote quote) (List.forall_mem_nil _) keys
        rw [emit_mode emitted]
        rfl
      · cases leads.stands
      · exact .outside rfl (leads.other quote) keys
  | inside mode mode' plain keys =>
      have leads := leadsOn_of_step mode read alive
      rcases step_string mode' read' with ⟨quote, emitted⟩ | ⟨rfl, -⟩ | ⟨quote, -, rfl⟩
      · refine .outside (leads.quote quote) ?_ (emit_holds inherited_plainKeys keys emitted ⟨nofun, ?_⟩)
        · rw [emit_mode emitted]
          rfl
        · rintro _ ⟨⟩ x member
          rw [String.toList_ofList] at member
          exact plain x (List.mem_reverse.mp member)
      · cases leads.stands
      · exact .inside (leads.other quote) rfl (List.forall_mem_cons.mpr ⟨leads.stands, plain⟩) keys

/-- A piece that begins inside a string holds no object but one with plain keys. -/
theorem plainKeys_of_flipped {alone last : Reader} {value : Value} (h : Flipped r alone)
    (read : r.run chars = some next) (alive : next.Alive) (read' : alone.run chars = some last)
    (finish : last.finish = some value) : PlainKeys value := by
  induction chars generalizing r alone with
  | nil =>
      cases read'
      obtain ⟨settled, settles, complete⟩ := finish_eq_some_iff.mp finish
      cases h with
      | outside _ _ keys =>
          have keys := settles.holds inherited_plainKeys plainKeys_bare? keys
          rwa [complete] at keys
      | inside _ mode' =>
          cases settles with
          | between mode | word mode => cases mode.symm.trans mode'
  | cons c chars ih =>
      rw [run_cons] at read read'
      obtain ⟨middle, step, read⟩ := Option.bind_eq_some_iff.mp read
      obtain ⟨middle', step', read'⟩ := Option.bind_eq_some_iff.mp read'
      have alive' := (Alive.of_finish finish).before read'
      exact ih (flipped_step h step (alive.before read) step' alive') read read'

theorem hidden_of_isBlank (blank : isBlank c) : ¬ (0x20 < c.toNat ∧ c.toNat < 0x80) := by
  simp only [isBlank, Bool.or_eq_true, Bool.and_eq_true, decide_eq_true_eq, beq_iff_eq] at blank
  omega

theorem visible_of_isWordChar (h : isWordChar c) : 0x20 < c.toNat ∧ c.toNat < 0x80 := by
  rw [isWordChar, Bool.or_eq_true] at h
  rcases h with digit | letter
  · rw [Char.isDigit, Bool.and_eq_true, decide_eq_true_eq, decide_eq_true_eq] at digit
    exact ⟨Nat.lt_of_lt_of_le (by decide) digit.1, Nat.lt_of_le_of_lt digit.2 (by decide)⟩
  · have table : ∀ letter ∈ ['+', '-', '.', 'E', 'I', 'N', 'a', 'e', 'f', 'i', 'l', 'n', 'r', 's', 't', 'u', 'y'],
        0x20 < letter.toNat ∧ letter.toNat < 0x80 := by simp
    exact table c (by simpa using letter)

theorem kindOf_of_isBlank (blank : isBlank c) : kindOf c = .blank ∨ kindOf c = .word := by
  have apart (mark : Char) (h : isBlank mark = false) : (c == mark) = false :=
    beq_false_of_ne fun same => Bool.false_ne_true ((same ▸ h).symm.trans blank)
  unfold kindOf
  rw [apart ',' rfl, apart ':' rfl, apart '[' rfl, apart ']' rfl, apart '\x7b' rfl, apart '\x7d' rfl,
    apart '\x22' rfl]
  cases isJsonBlank c with
  | true => exact .inl rfl
  | false => exact .inr rfl

/-- A blank is taken into a string, or else it settles what has been read. -/
theorem step_blank (blank : isBlank c) (read : r.step c = some next) (alive : next.Alive) :
    (∃ chars, r.mode = .string chars ∧ next.mode = .string (c :: chars)) ∨ Settles r next := by
  have noWord (inWord : isWordChar c) : False :=
    hidden_of_isBlank blank (visible_of_isWordChar inWord)
  cases steps_of_step read with
  | @begins after settles begun =>
      rw [begin_eq] at begun
      rcases kindOf_of_isBlank blank with kind | kind
      · rw [kind] at begun
        cases begun
        have same : ({ after with mode := .between } : Reader) = after := by rw [← settles.mode]
        exact .inr (same ▸ settles)
      · rw [kind] at begun
        cases begun
        exact (noWord (alive.wordChars rfl c (List.mem_singleton_self c))).elim
  | inWord _ _ same =>
      exact (noWord (alive.wordChars (by rw [same]) c (List.mem_cons_self ..))).elim
  | endsString _ quote =>
      rw [quote] at blank
      cases blank
  | inString mode _ _ _ same => exact .inl ⟨_, mode, by rw [same]⟩
  | escapes _ escape =>
      rw [escape] at blank
      cases blank
  | inEscape _ _ visible => exact absurd visible (hidden_of_isBlank blank)

theorem string_of_blanks (mode : r.mode = .string chars) {blanks : List Char}
    (blank : ∀ c ∈ blanks, isBlank c) (read : r.run blanks = some next) (alive : next.Alive) :
    ∃ others, next.mode = .string others := by
  induction blanks generalizing r chars with
  | nil =>
      cases read
      exact ⟨chars, mode⟩
  | cons c blanks ih =>
      obtain ⟨first, blank⟩ := List.forall_mem_cons.mp blank
      rw [run_cons] at read
      obtain ⟨middle, step, read⟩ := Option.bind_eq_some_iff.mp read
      rcases step_blank first step (alive.before read) with ⟨others, -, mode'⟩ | settles
      · exact ih mode' blank read
      · cases settles with
        | between same | word same => cases same.symm.trans mode

/-- Blanks behind a string that has not ended are in the string. -/
theorem string_before_blanks {blanks : List Char} (blank : ∀ c ∈ blanks, isBlank c)
    (read : r.run blanks = some next) (mode : next.mode = .string chars) (alive : next.Alive) :
    ∃ others, r.mode = .string others := by
  induction blanks generalizing r with
  | nil =>
      cases read
      exact ⟨chars, mode⟩
  | cons c blanks ih =>
      obtain ⟨first, blank⟩ := List.forall_mem_cons.mp blank
      rw [run_cons] at read
      obtain ⟨middle, step, read⟩ := Option.bind_eq_some_iff.mp read
      obtain ⟨others, mode'⟩ := ih blank read
      rcases step_blank first step (alive.before read) with ⟨others, same, -⟩ | settles
      · exact ⟨others, same⟩
      · cases settles.mode.symm.trans mode'

/-- Blanks between tokens change nothing. -/
theorem run_blanks (mode : r.mode = .between) {blanks : List Char} (blank : ∀ c ∈ blanks, isBlank c)
    (read : r.run blanks = some next) (alive : next.Alive) : next = r := by
  induction blanks generalizing r with
  | nil =>
      cases read
      rfl
  | cons c blanks ih =>
      obtain ⟨first, blank⟩ := List.forall_mem_cons.mp blank
      rw [run_cons] at read
      obtain ⟨middle, step, read⟩ := Option.bind_eq_some_iff.mp read
      rcases step_blank first step (alive.before read) with ⟨others, same, -⟩ | settles
      · cases same.symm.trans mode
      · cases settles with
        | between => exact ih mode blank read
        | word same => cases same.symm.trans mode

/-- What is complete with blanks behind it is complete without them. -/
theorem finish_before_blanks {blanks : List Char} (blank : ∀ c ∈ blanks, isBlank c) {value : Value}
    (read : r.run blanks = some next) (finish : next.finish = some value) : r.finish = some value := by
  induction blanks generalizing r with
  | nil =>
      cases read
      exact finish
  | cons c blanks ih =>
      obtain ⟨first, blank⟩ := List.forall_mem_cons.mp blank
      rw [run_cons] at read
      obtain ⟨middle, step, read⟩ := Option.bind_eq_some_iff.mp read
      obtain ⟨settled, settles, complete⟩ := finish_eq_some_iff.mp (ih blank read)
      rcases step_blank first step ((Alive.of_finish finish).before read) with ⟨others, -, mode⟩ | before
      · cases settles with
        | between same | word same => cases same.symm.trans mode
      · cases settles with
        | between => exact finish_eq_some_iff.mpr ⟨middle, before, complete⟩
        | word same => cases same.symm.trans before.mode

/-- A character that can neither stand outside strings nor in an escape is taken into a string. -/
theorem step_hidden (outside : standsOutside c = false) (hidden : ¬ (0x20 < c.toNat ∧ c.toNat < 0x80))
    (read : r.step c = some next) (alive : next.Alive) :
    ∃ chars, r.mode = .string chars ∧ next.mode = .string (c :: chars) ∧ 0x20 ≤ c.toNat := by
  have apart (h : r.mode.inString = false) : False := by
    rw [(leadsOn_of_step h read alive).stands] at outside
    cases outside
  cases steps_of_step read with
  | begins settles => cases settles with
    | between mode | word mode => exact (apart (by rw [mode]; rfl)).elim
  | inWord mode => exact (apart (by rw [mode]; rfl)).elim
  | endsString _ quote =>
      rw [quote] at outside
      cases outside
  | inString mode _ _ printable same => exact ⟨_, mode, by rw [same], printable⟩
  | escapes _ escape => exact absurd (escape ▸ by decide) hidden
  | inEscape _ _ visible => exact absurd visible hidden

/-- Where the text goes on behind some characters. -/
theorem run_parts {rest : List Char} (read : r.run (chars ++ c :: rest) = some next) :
    ∃ before after, r.run chars = some before ∧ before.step c = some after ∧
      after.run rest = some next := by
  rw [run_append] at read
  obtain ⟨before, front, read⟩ := Option.bind_eq_some_iff.mp read
  rw [run_cons] at read
  obtain ⟨after, step, read⟩ := Option.bind_eq_some_iff.mp read
  exact ⟨before, after, front, step, read⟩

end

end Reader

section

variable {line : Nat} {text : List Char} {value : Value} {r next : Reader}

theorem read?_ofList_eq_some_iff : read? line (String.ofList text) = some value ↔
    ∃ last, ({ line } : Reader).run text = some last ∧ last.finish = some value := by
  rw [read?, String.toList_ofList]
  exact Option.bind_eq_some_iff

/-- What is read is read without the blanks around it. -/
theorem read?_trim (read : read? line (String.ofList text) = some value) :
    read? line (String.ofList (trim text)) = some value := by
  obtain ⟨last, run, finish⟩ := read?_ofList_eq_some_iff.mp read
  obtain ⟨lead, trail, parts, leading, trailing⟩ := trim_parts text
  rw [parts, Reader.run_append] at run
  obtain ⟨start, front, run⟩ := Option.bind_eq_some_iff.mp run
  have alive := (Reader.Alive.of_finish finish).before run
  obtain rfl := Reader.run_blanks rfl leading front alive
  rw [Reader.run_append] at run
  obtain ⟨before, core, run⟩ := Option.bind_eq_some_iff.mp run
  exact read?_ofList_eq_some_iff.mpr ⟨before, core, Reader.finish_before_blanks trailing run finish⟩

/-- A text that ends inside a string is no value. -/
theorem read?_trim_of_string {chars : List Char} (read : ({ line } : Reader).run text = some next)
    (mode : next.mode = .string chars) (alive : next.Alive) :
    trim text ≠ [] ∧ read? line (String.ofList (trim text)) = none := by
  obtain ⟨lead, trail, parts, leading, trailing⟩ := trim_parts text
  rw [parts, Reader.run_append] at read
  obtain ⟨start, front, read⟩ := Option.bind_eq_some_iff.mp read
  obtain rfl := Reader.run_blanks rfl leading front (alive.before read)
  rw [Reader.run_append] at read
  obtain ⟨before, core, read⟩ := Option.bind_eq_some_iff.mp read
  obtain ⟨others, mode'⟩ := Reader.string_before_blanks trailing read mode alive
  refine ⟨fun empty => ?_, Option.eq_none_iff_forall_ne_some.mpr fun value complete => ?_⟩
  · rw [empty] at core
    cases core
    cases mode'
  · obtain ⟨last, run, finish⟩ := read?_ofList_eq_some_iff.mp complete
    cases core.symm.trans run
    obtain ⟨settled, settles, -⟩ := Reader.finish_eq_some_iff.mp finish
    cases settles with
    | between same | word same => cases same.symm.trans mode'

/-- What is read from a piece that begins inside a string has plain keys. -/
theorem plainKeys_of_piece {chars : List Char} (mode : r.mode = .string chars)
    (read : r.run text = some next) (alive : next.Alive)
    (alone : read? line (String.ofList (trim text)) = some value) : Reader.PlainKeys value := by
  obtain ⟨lead, trail, parts, leading, trailing⟩ := trim_parts text
  rw [parts, Reader.run_append] at read
  obtain ⟨start, front, read⟩ := Option.bind_eq_some_iff.mp read
  obtain ⟨others, mode'⟩ := Reader.string_of_blanks mode leading front (alive.before read)
  rw [Reader.run_append] at read
  obtain ⟨before, core, read⟩ := Option.bind_eq_some_iff.mp read
  obtain ⟨last, run, finish⟩ := read?_ofList_eq_some_iff.mp alone
  have flipped : Reader.Flipped start { line } := .outside mode' rfl (List.forall_mem_nil _)
  exact Reader.plainKeys_of_flipped flipped core (alive.before read) run finish

end

end QueryHarvest.Json
