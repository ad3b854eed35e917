import Mathlib
import QueryHarvest.Json.Reader

/-! # One step of the reader

What a single character can do: between tokens and in words it is told by its kind, and inside a string
it changes nothing but how far the string has been read. What holds of every part of the open
containers holds of the value in the end.
-/

namespace QueryHarvest.Json

open Number

/-- A property of values that containers take over from their parts. The keys of objects have one of
their own. -/
structure Inherited (K : String → Prop) (P : Value → Prop) : Prop where
  list : ∀ items, (∀ item ∈ items, P item) → P (.list items)
  object : ∀ fields : List (String × Value), (∀ field ∈ fields, K field.1 ∧ P field.2) → P (.object fields)

section

variable {K : String → Prop} {P : Value → Prop}

/-- What is in an open container has the properties. -/
def Frame.Holds (K : String → Prop) (P : Value → Prop) : Frame → Prop
  | .array items => ∀ item ∈ items, P item
  | .object fields => ∀ field ∈ fields, K field.1 ∧ P field.2
  | .field fields key => K key ∧ ∀ field ∈ fields, K field.1 ∧ P field.2

def Token.Holds (K : String → Prop) (P : Value → Prop) : Token → Prop
  | .scalar value => P value ∧ ∀ key, value = .text key → K key
  | _ => True

/-- All that has been read has the properties. -/
def Progress.Holds (K : String → Prop) (P : Value → Prop) : Progress → Prop
  | .unfinished _ frames => ∀ frame ∈ frames, frame.Holds K P
  | .complete value => P value

variable {frames : List Frame} {progress next : Progress} {token : Token} {value : Value}

theorem setField_holds {fields : List (String × Value)} {key : String}
    (h : ∀ field ∈ fields, K field.1 ∧ P field.2) (hkey : K key) (hvalue : P value) :
    ∀ field ∈ setField key value fields, K field.1 ∧ P field.2 := by
  intro field member
  rw [setField] at member
  split at member
  · obtain ⟨old, inside, rfl⟩ := List.mem_map.mp member
    split
    · exact ⟨hkey, hvalue⟩
    · exact h old inside
  · rcases List.mem_cons.mp member with rfl | member
    · exact ⟨hkey, hvalue⟩
    · exact h field member

theorem put_holds (h : ∀ frame ∈ frames, frame.Holds K P) (taken : put frames value = some next)
    (hvalue : P value) : next.Holds K P := by
  cases frames with
  | nil =>
      cases taken
      exact hvalue
  | cons frame frames =>
      rw [List.forall_mem_cons] at h
      cases frame with
      | array items =>
          cases taken
          exact List.forall_mem_cons.mpr ⟨List.forall_mem_cons.mpr ⟨hvalue, h.1⟩, h.2⟩
      | object => cases taken
      | field fields key =>
          cases taken
          exact List.forall_mem_cons.mpr ⟨setField_holds h.1.2 h.1.1 hvalue, h.2⟩

theorem begin?_holds (h : ∀ frame ∈ frames, frame.Holds K P) (taken : begin? frames token = some next)
    (htoken : token.Holds K P) : next.Holds K P := by
  cases token with
  | scalar value => exact put_holds h taken htoken.1
  | openArray | openObject =>
      simp only [begin?] at taken
      split at taken
      · cases taken
        exact List.forall_mem_cons.mpr ⟨List.forall_mem_nil _, h⟩
      · cases taken
  | closeArray | closeObject | comma | colon => cases taken

/-- A token leads from parts with the properties to parts with the properties. -/
theorem take?_holds (inherited : Inherited K P) (h : progress.Holds K P)
    (taken : progress.take? token = some next) (htoken : token.Holds K P) : next.Holds K P := by
  unfold Progress.take? at taken
  split at taken
  · cases taken
  · exact put_holds (List.forall_mem_cons.mp h).2 taken (inherited.list _ (List.forall_mem_nil _))
  · exact put_holds (List.forall_mem_cons.mp h).2 taken (inherited.object _ (List.forall_mem_nil _))
  · exact begin?_holds h taken htoken
  · exact begin?_holds h taken htoken
  · cases taken
    exact h
  · obtain ⟨items, outer⟩ := List.forall_mem_cons.mp h
    refine put_holds outer taken (inherited.list _ fun item member => ?_)
    exact items item (List.mem_reverse.mp member)
  · cases taken
    exact h
  · obtain ⟨fields, outer⟩ := List.forall_mem_cons.mp h
    refine put_holds outer taken (inherited.object _ fun field member => ?_)
    exact fields field (List.mem_reverse.mp member)
  · cases taken
    obtain ⟨fields, outer⟩ := List.forall_mem_cons.mp h
    exact List.forall_mem_cons.mpr ⟨⟨htoken.2 _ rfl, fields⟩, outer⟩
  · cases taken
    obtain ⟨fields, outer⟩ := List.forall_mem_cons.mp h
    exact List.forall_mem_cons.mpr ⟨⟨htoken.2 _ rfl, fields⟩, outer⟩
  · cases taken
    exact h
  · cases taken

end

/-- The characters of words and numbers. -/
def isWordChar (c : Char) : Bool :=
  c.isDigit || ['+', '-', '.', 'E', 'I', 'N', 'a', 'e', 'f', 'i', 'l', 'n', 'r', 's', 't', 'u', 'y'].contains c

theorem isWordChar_of_isDigit {c : Char} (digit : c.isDigit) : isWordChar c := by
  rw [isWordChar, digit]
  rfl

theorem forall_wordChar_of_takeWhile {chars : List Char}
    (rest : ∀ c ∈ chars.dropWhile Char.isDigit, isWordChar c) : ∀ c ∈ chars, isWordChar c := by
  intro c member
  rw [← List.takeWhile_append_dropWhile (p := Char.isDigit) (l := chars)] at member
  rcases List.mem_append.mp member with digit | member
  · exact isWordChar_of_isDigit (List.mem_takeWhile_imp digit)
  · exact rest c member

theorem signed_wordChars {chars : List Char} (digits : (splitSign chars).2.all Char.isDigit) :
    ∀ c ∈ chars, isWordChar c := by
  have plain {rest : List Char} (all : rest.all Char.isDigit) : ∀ c ∈ rest, isWordChar c :=
    fun c member => isWordChar_of_isDigit (List.all_eq_true.mp all c member)
  unfold splitSign at digits
  split at digits
  · exact List.forall_mem_cons.mpr ⟨rfl, plain digits⟩
  · exact List.forall_mem_cons.mpr ⟨rfl, plain digits⟩
  · exact plain digits

section

variable {chars : List Char}

/-- A fraction is made of digits, so only what follows it matters. -/
theorem fraction_wordChars {fraction tail : List Char}
    (read : (match chars with
      | '.' :: rest =>
        let digits := rest.takeWhile Char.isDigit
        if digits.isEmpty then none else some (digits, rest.dropWhile Char.isDigit)
      | rest => some ([], rest)) = some (fraction, tail))
    (plain : ∀ c ∈ tail, isWordChar c) : ∀ c ∈ chars, isWordChar c := by
  split at read
  · dsimp only at read
    split at read
    · cases read
    · cases read
      exact List.forall_mem_cons.mpr ⟨rfl, forall_wordChar_of_takeWhile plain⟩
  · cases read
    exact plain

theorem fractionAndExponent?_chars {found : Option (List Char × Int)}
    (read : fractionAndExponent? chars = some found) : ∀ c ∈ chars, isWordChar c := by
  unfold fractionAndExponent? at read
  dsimp only at read
  split at read
  · cases read
  · next behind => exact fraction_wordChars behind (List.forall_mem_nil _)
  · next c rest behind =>
    split at read
    · next letter =>
      split at read
      · cases read
      · next digits =>
        refine fraction_wordChars behind (List.forall_mem_cons.mpr ⟨?_, signed_wordChars ?_⟩)
        · rcases Bool.or_eq_true _ _ ▸ letter with letter | letter <;> rw [eq_of_beq letter] <;> rfl
        · simp only [Bool.or_eq_true, not_or] at digits
          simpa using digits.2
    · cases read

theorem negated_wordChars {negative : Bool} {body : List Char}
    (read : (match chars with
      | '-' :: rest => (true, rest)
      | rest => (false, rest)) = (negative, body))
    (plain : ∀ c ∈ body, isWordChar c) : ∀ c ∈ chars, isWordChar c := by
  split at read
  · cases read
    exact List.forall_mem_cons.mpr ⟨rfl, plain⟩
  · cases read
    exact plain

theorem number?_chars {value : Value} (read : number? chars = some value) :
    ∀ c ∈ chars, isWordChar c := by
  unfold number? at read
  split at read
  next negative body sign =>
  refine negated_wordChars sign (forall_wordChar_of_takeWhile ?_)
  dsimp only at read
  split at read
  · cases read
  · split at read
    · cases read
    · exact fractionAndExponent?_chars ‹_›
    · exact fractionAndExponent?_chars ‹_›

end

theorem bare?_chars {occurrence : Occurrence} {chars : List Char} {value : Value}
    (read : bare? occurrence chars = some value) : ∀ c ∈ chars, isWordChar c := by
  have named {name : String} (same : String.ofList chars = name)
      (plain : ∀ c ∈ name.toList, isWordChar c) : ∀ c ∈ chars, isWordChar c := by
    rwa [← same, String.toList_ofList] at plain
  unfold bare? at read
  split at read
  case h_7 => exact number?_chars read
  all_goals exact named ‹_› (by simp [isWordChar])

/-- Words stand for values without parts that are no texts. -/
theorem bare?_kinds {occurrence : Occurrence} {chars : List Char} {value : Value}
    (read : bare? occurrence chars = some value) :
    value = .null ∨ (∃ b, value = .bool b) ∨ (∃ n, value = .int n) ∨ ∃ x, value = .float x := by
  simp only [bare?, number?] at read
  repeat' split at read
  all_goals
    cases read
    try simp

theorem bare?_no_text {occurrence : Occurrence} {chars : List Char} {value : Value}
    (read : bare? occurrence chars = some value) (s : String) : value ≠ .text s := by
  rcases bare?_kinds read with rfl | ⟨_, rfl⟩ | ⟨_, rfl⟩ | ⟨_, rfl⟩ <;> nofun

/-- Is a string being read? -/
def Mode.inString : Mode → Bool
  | .between => false
  | .bare _ => false
  | _ => true

namespace Reader

/-- What a character is between tokens. -/
inductive Kind where
  | blank
  | quote
  /-- A token by itself. -/
  | mark (token : Token)
  /-- The beginning of a word or of a number. -/
  | word

def kindOf (c : Char) : Kind :=
  if isJsonBlank c then .blank
  else if c == ',' then .mark .comma
  else if c == ':' then .mark .colon
  else if c == '[' then .mark .openArray
  else if c == ']' then .mark .closeArray
  else if c == '\x7b' then .mark .openObject
  else if c == '\x7d' then .mark .closeObject
  else if c == '\x22' then .quote
  else .word

section

variable {r next : Reader} {c : Char}

theorem begin_eq (r : Reader) (c : Char) :
    r.begin c = match kindOf c with
      | .blank => some { r with mode := .between }
      | .quote => some { r with mode := .string [] }
      | .mark token => r.emit token
      | .word => some { r with mode := .bare [c] } := by
  unfold begin kindOf
  repeat' split
  all_goals simp_all

theorem mark_ne_scalar {token : Token} (mark : kindOf c = .mark token) (value : Value) :
    token ≠ .scalar value := by
  unfold kindOf at mark
  repeat' split at mark
  all_goals
    cases mark
    try nofun

theorem kindOf_quote (quote : kindOf c = .quote) : c = '\x22' := by
  unfold kindOf at quote
  repeat' split at quote
  all_goals first | cases quote; done | exact eq_of_beq ‹_›

/-- Only words do not end words. -/
theorem endsBare_of_kindOf (h : kindOf c ≠ .word) : endsBare c := by
  unfold kindOf at h
  unfold endsBare
  repeat' split at h
  all_goals simp_all

theorem emit_mode {token : Token} (read : r.emit token = some next) : next.mode = .between := by
  obtain ⟨progress, -, same⟩ := Option.bind_eq_some_iff.mp read
  cases same
  rfl

theorem emit_holds {K : String → Prop} {P : Value → Prop} (inherited : Inherited K P) {token : Token}
    (h : r.progress.Holds K P) (read : r.emit token = some next) (htoken : token.Holds K P) :
    next.progress.Holds K P := by
  obtain ⟨progress, taken, same⟩ := Option.bind_eq_some_iff.mp read
  cases same
  exact take?_holds inherited h taken htoken

theorem begin_holds {K : String → Prop} {P : Value → Prop} (inherited : Inherited K P)
    (h : r.progress.Holds K P) (read : r.begin c = some next) : next.progress.Holds K P := by
  cases kind : kindOf c with
  | blank | quote | word =>
      rw [begin_eq, kind] at read
      cases read
      exact h
  | mark token =>
      rw [begin_eq, kind] at read
      refine emit_holds inherited h read ?_
      cases token with
      | scalar value => exact absurd rfl (mark_ne_scalar kind value)
      | openArray | closeArray | openObject | closeObject | comma | colon => trivial

/-- What has been read is settled: a word that is being read is at its end. -/
inductive Settles (r : Reader) : Reader → Prop where
  | between (mode : r.mode = .between) : Settles r r
  | word {chars : List Char} {after : Reader} (mode : r.mode = .bare chars)
      (ended : r.endBare chars = some after) : Settles r after

theorem Settles.mode {after : Reader} (settles : Settles r after) : after.mode = .between := by
  cases settles with
  | between mode => exact mode
  | word _ ended =>
      obtain ⟨value, -, read⟩ := Option.bind_eq_some_iff.mp ended
      obtain ⟨emitted, taken, same⟩ := Option.bind_eq_some_iff.mp read
      have mode := emit_mode taken
      cases same
      exact mode

/-- Words bring in the values that they stand for, and no keys. -/
theorem Settles.holds {K : String → Prop} {P : Value → Prop} (inherited : Inherited K P)
    (words : ∀ occurrence chars value, bare? occurrence chars = some value → P value) {after : Reader}
    (settles : Settles r after) (h : r.progress.Holds K P) : after.progress.Holds K P := by
  cases settles with
  | between => exact h
  | word _ ended =>
      obtain ⟨value, word, read⟩ := Option.bind_eq_some_iff.mp ended
      obtain ⟨emitted, taken, same⟩ := Option.bind_eq_some_iff.mp read
      have holds := emit_holds inherited h taken
        ⟨words _ _ value word, fun key same => absurd same (bare?_no_text word key)⟩
      cases same
      exact holds

/-- What a character can do. -/
inductive Steps (r : Reader) (c : Char) (next : Reader) : Prop where
  | begins {after : Reader} (settles : Settles r after) (begun : after.begin c = some next)
  | inWord {chars : List Char} (mode : r.mode = .bare chars) (inside : endsBare c = false)
      (same : next = { r with mode := .bare (c :: chars) })
  | endsString {chars : List Char} (mode : r.mode = .string chars) (quote : c = '\x22')
      (emitted : r.emit (.scalar (.text (String.ofList chars.reverse))) = some next)
  | inString {chars : List Char} (mode : r.mode = .string chars) (quote : c ≠ '\x22')
      (escape : c ≠ '\\') (printable : 0x20 ≤ c.toNat)
      (same : next = { r with mode := .string (c :: chars) })
  | escapes {chars : List Char} (mode : r.mode = .string chars) (escape : c = '\\')
      (same : next = { r with mode := .escape chars })
  | inEscape {mode : Mode} (inside : r.mode.inString) (other : ∀ chars, r.mode ≠ .string chars)
      (visible : 0x20 < c.toNat ∧ c.toNat < 0x80) (same : next = { r with mode })
      (still : mode.inString)

theorem visible_of_simpleEscape? {e : Char} (stands : simpleEscape? c = some e) :
    0x20 < c.toNat ∧ c.toNat < 0x80 := by
  unfold simpleEscape? at stands
  repeat' split at stands
  · next plain =>
    simp only [Bool.or_eq_true, beq_iff_eq] at plain
    rcases plain with (rfl | rfl) | rfl <;> decide
  all_goals first
    | exact eq_of_beq ‹_› ▸ by decide
    | cases stands

theorem visible_of_hexValue? {digit : Nat} (hex : Uuid.hexValue? c = some digit) :
    0x20 < c.toNat ∧ c.toNat < 0x80 := by
  have bounds {low high : Char} (above : low ≤ c) (below : c ≤ high) (visible : 0x20 < low.toNat)
      (ascii : high.toNat < 0x80) : 0x20 < c.toNat ∧ c.toNat < 0x80 :=
    ⟨visible.trans_le above, Nat.lt_of_le_of_lt below ascii⟩
  unfold Uuid.hexValue? at hex
  split at hex
  · next isDigit =>
    rw [Char.isDigit, Bool.and_eq_true, decide_eq_true_eq, decide_eq_true_eq] at isDigit
    exact @bounds '0' '9' isDigit.1 isDigit.2 (by decide) (by decide)
  · split at hex
    · next lower =>
      rw [Bool.and_eq_true, decide_eq_true_eq, decide_eq_true_eq] at lower
      exact bounds lower.1 lower.2 (by decide) (by decide)
    · split at hex
      · next upper =>
        rw [Bool.and_eq_true, decide_eq_true_eq, decide_eq_true_eq] at upper
        exact bounds upper.1 upper.2 (by decide) (by decide)
      · cases hex

theorem endUnicode_eq_some {chars : List Char} {high : Option Nat} {unit : Nat}
    (read : r.endUnicode chars high unit = some next) :
    ∃ mode : Mode, next = { r with mode } ∧ mode.inString := by
  unfold endUnicode at read
  repeat' split at read
  all_goals first
    | cases read; done
    | cases read; exact ⟨_, rfl, rfl⟩

theorem steps_of_step (read : r.step c = some next) : Steps r c next := by
  unfold step at read
  split at read
  case h_1 mode => exact .begins (.between mode) read
  case h_2 chars mode =>
    split at read
    · obtain ⟨after, ended, read⟩ := Option.bind_eq_some_iff.mp read
      exact .begins (.word mode ended) read
    · next inside =>
      cases read
      exact .inWord mode (Bool.eq_false_iff.mpr inside) rfl
  case h_3 chars mode =>
    split at read
    · next quote => exact .endsString mode (eq_of_beq quote) read
    · next quote =>
      split at read
      · next escape =>
        cases read
        exact .escapes mode (eq_of_beq escape) rfl
      · next escape =>
        split at read
        · cases read
        · cases read
          exact .inString mode (by simpa using quote) (by simpa using escape) (by omega) rfl
  case h_4 chars mode =>
    have apart : ∀ others, r.mode ≠ .string others := by simp [mode]
    split at read
    · next unicode =>
      cases read
      exact .inEscape (by rw [mode]; rfl) apart (eq_of_beq unicode ▸ by decide) rfl rfl
    · obtain ⟨e, stands, rfl⟩ := Option.map_eq_some_iff.mp read
      exact .inEscape (by rw [mode]; rfl) apart (visible_of_simpleEscape? stands) rfl rfl
  case h_5 chars high count value mode =>
    have apart : ∀ others, r.mode ≠ .string others := by simp [mode]
    split at read
    · cases read
    · next digit hex =>
      have visible := visible_of_hexValue? hex
      split at read
      · obtain ⟨after, rfl, still⟩ := endUnicode_eq_some read
        exact .inEscape (by rw [mode]; rfl) apart visible rfl still
      · cases read
        exact .inEscape (by rw [mode]; rfl) apart visible rfl rfl
  case h_6 chars high mode =>
    split at read <;> cases read
    exact .inEscape (by rw [mode]; rfl) (by simp [mode]) (eq_of_beq ‹_› ▸ by decide) rfl rfl
  case h_7 chars high mode =>
    split at read <;> cases read
    exact .inEscape (by rw [mode]; rfl) (by simp [mode]) (eq_of_beq ‹_› ▸ by decide) rfl rfl

/-- Outside strings, a character follows on what is settled, or on a word. -/
theorem step_outside (outside : r.mode.inString = false) (read : r.step c = some next) :
    (∃ after, Settles r after ∧ after.begin c = some next) ∨
      ∃ chars, r.mode = .bare chars ∧ endsBare c = false ∧ next = { r with mode := .bare (c :: chars) } := by
  cases steps_of_step read with
  | begins settles begun => exact .inl ⟨_, settles, begun⟩
  | inWord mode inside same => exact .inr ⟨_, mode, inside, same⟩
  | endsString mode | inString mode | escapes mode =>
      rw [mode] at outside
      cases outside
  | inEscape inside =>
      rw [inside] at outside
      cases outside

/-- In a string, a quote ends it, a backslash begins an escape, and any other character is taken. -/
theorem step_string {chars : List Char} (mode : r.mode = .string chars) (read : r.step c = some next) :
    (c = '\x22' ∧ r.emit (.scalar (.text (String.ofList chars.reverse))) = some next) ∨
    (c = '\\' ∧ next = { r with mode := .escape chars }) ∨
    (c ≠ '\x22' ∧ c ≠ '\\' ∧ next = { r with mode := .string (c :: chars) }) := by
  cases steps_of_step read with
  | begins settles => cases settles with
    | between same | word same => cases same.symm.trans mode
  | inWord same => cases same.symm.trans mode
  | endsString same quote emitted =>
      cases same.symm.trans mode
      exact .inl ⟨quote, emitted⟩
  | inString same quote escape _ grown =>
      cases same.symm.trans mode
      exact .inr (.inr ⟨quote, escape, grown⟩)
  | escapes same escape grown =>
      cases same.symm.trans mode
      exact .inr (.inl ⟨escape, grown⟩)
  | inEscape _ other => exact absurd mode (other chars)

theorem completed_eq_some_iff {progress : Progress} {value : Value} : (match progress with
    | .complete value => some value
    | .unfinished .. => none) = some value ↔ progress = .complete value := by
  cases progress <;> simp

/-- Reading ends where what has been read is settled and complete. -/
theorem finish_eq_some_iff {value : Value} : r.finish = some value ↔
    ∃ last, Settles r last ∧ last.progress = .complete value := by
  constructor
  · intro finish
    unfold Reader.finish at finish
    dsimp only at finish
    split at finish
    · next mode => exact ⟨r, .between mode, completed_eq_some_iff.mp finish⟩
    · next chars mode =>
      obtain ⟨last, ended, finish⟩ := Option.bind_eq_some_iff.mp finish
      exact ⟨last, .word mode ended, completed_eq_some_iff.mp finish⟩
    · cases finish
  · rintro ⟨last, settles, complete⟩
    have taken := completed_eq_some_iff.mpr complete
    cases settles with
    | between mode =>
        rw [Reader.finish, mode]
        exact taken
    | word mode ended =>
        rw [Reader.finish, mode]
        exact Option.bind_eq_some_iff.mpr ⟨last, ended, taken⟩

end

end Reader

end QueryHarvest.Json
