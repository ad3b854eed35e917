import QueryHarvest.Proofs.Json.Numbers
import QueryHarvest.Proofs.Json.Strings
import QueryHarvest.Proofs.Outcome
import QueryHarvest.Proofs.Text.Lines

/-! # JSON texts that are read as values

A text is legible as a value when it is visible ASCII and the reader, wherever it expects a value,
comes from the text to just that value. Arrays and objects are legible when their parts are.
-/

namespace QueryHarvest.Json

open Text Number

/-- The characters of ASCII that are neither controls nor beyond the tilde. -/
def isVisible (c : Char) : Bool :=
  0x20 ≤ c.toNat && c.toNat ≤ 0x7E

/-- A word or a number that is read as a value. -/
structure Word (word : List Char) (value : Value) : Prop where
  nonempty : word ≠ []
  plain : ∀ c ∈ word, endsBare c = false ∧ isVisible c
  read : ∀ occurrence, bare? occurrence word = some value

theorem plain_number {c : Char} (h : isNumberChar c) : endsBare c = false ∧ isVisible c := by
  constructor
  · refine Bool.eq_false_iff.mpr fun ends => ?_
    simp only [endsBare, isJsonBlank, Bool.or_eq_true, beq_iff_eq, or_assoc] at ends
    rcases ends with rfl | rfl | rfl | rfl | rfl | rfl | rfl | rfl | rfl | rfl | rfl <;>
      exact absurd h (by decide)
  · simp only [isNumberChar, Bool.or_eq_true, beq_iff_eq, or_assoc] at h
    rcases h with digit | rfl | rfl | rfl | rfl
    · have bounds : 48 ≤ c.toNat ∧ c.toNat ≤ 57 := by
        simp only [Char.isDigit, Bool.and_eq_true, decide_eq_true_eq, UInt32.le_iff_toNat_le] at digit
        exact digit
      simp only [isVisible, Bool.and_eq_true, decide_eq_true_eq]
      omega
    all_goals rfl

theorem word_int {n : Int} (h : n.natAbs < 10 ^ maxDigits) : Word (toString n).toList (.int n) where
  nonempty := by
    rw [toList_int, List.append_nil]
    exact List.append_ne_nil_of_right_ne_nil _ Nat.toDigits_ne_nil
  plain c member := by
    rw [toList_int, List.append_nil] at member
    refine plain_number ?_
    rcases List.mem_append.mp member with member | member
    · cases negative : decide (n < 0) <;> rw [negative] at member
      · cases member
      · rw [List.mem_singleton.mp member]
        rfl
    · exact isNumberChar_digit (isDigit_char_of_mem_toDigits member)
  read := bare?_int h

theorem word_float {n : Nat} (small : n < 2 ^ 53) :
    ∃ x, Word (float (Binary64.ofInt n)).toList (.float x) := by
  obtain ⟨whole, rest, text, hwhole, tail⟩ := float_natCast_parts small
  obtain ⟨x, read⟩ := bare?_floatTail hwhole tail
  rw [text]
  exact ⟨x, List.append_ne_nil_of_left_ne_nil hwhole.nonempty _,
    fun c member => plain_number (all_digits_append hwhole.digits tail.chars c member), read⟩

theorem word_null : Word "null".toList .null where
  nonempty := List.cons_ne_nil 'n' _
  plain := by simp [endsBare, isJsonBlank, isVisible]
  read occurrence := by simp [bare?]

theorem word_bool (b : Bool) : Word (if b then "true" else "false").toList (.bool b) where
  nonempty := by cases b <;> exact List.cons_ne_nil _ _
  plain := by cases b <;> simp [endsBare, isJsonBlank, isVisible]
  read occurrence := by cases b <;> simp [bare?]

/-- A value may come next. -/
def Awaits (progress : Progress) (frames : List Frame) : Prop :=
  progress = .unfinished .value frames ∨ progress = .unfinished .valueOrClose frames

section

variable {progress : Progress} {frames : List Frame}

theorem take?_scalar (h : Awaits progress frames) (value : Value) :
    progress.take? (.scalar value) = put frames value := by
  rcases h with rfl | rfl <;> simp [Progress.take?, begin?]

theorem take?_openArray (h : Awaits progress frames) (room : frames.length < maxDepth) :
    progress.take? .openArray = some (.unfinished .valueOrClose (.array [] :: frames)) := by
  rcases h with rfl | rfl <;> simp [Progress.take?, begin?, room]

theorem take?_openObject (h : Awaits progress frames) (room : frames.length < maxDepth) :
    progress.take? .openObject = some (.unfinished .keyOrClose (.object [] :: frames)) := by
  rcases h with rfl | rfl <;> simp [Progress.take?, begin?, room]

end

namespace Reader

variable {r : Reader} {progress : Progress}

theorem run_between (between : r.mode = .between) (c : Char) (rest : List Char) :
    r.run (c :: rest) = (r.begin c).bind fun next => next.run rest := by
  rw [run_cons, step, between]

theorem emit_of_take? {token : Token} (taken : r.progress.take? token = some progress) :
    r.emit token = some { r with mode := .between, progress } := by
  rw [emit, taken]
  rfl

/-- A mark that is a token by itself is read as the token. -/
theorem run_token (between : r.mode = .between) {c : Char} {token : Token}
    (mark : r.begin c = r.emit token) (taken : r.progress.take? token = some progress)
    (rest : List Char) :
    r.run (c :: rest) = ({ r with mode := .between, progress } : Reader).run rest := by
  rw [run_between between, mark, emit_of_take? taken, Option.bind_some]

theorem run_space (between : r.mode = .between) (rest : List Char) : r.run (' ' :: rest) = r.run rest := by
  have same : ({ r with mode := .between } : Reader) = r := by rw [← between]
  rw [run_between between]
  exact congrArg (·.run rest) same

/-- The reader comes by a text to a progress, if a character follows that ends a word. -/
def Reads (r : Reader) (text : List Char) (progress : Progress) : Prop :=
  ∀ c rest, endsBare c →
    ∃ scalars, r.run (text ++ c :: rest) =
      ({ r with mode := .between, progress, scalars } : Reader).run (c :: rest)

/-- The reader comes by a text to a progress, whatever follows. -/
def Passes (r : Reader) (text : List Char) (progress : Progress) : Prop :=
  ∃ scalars, r.run text = some { r with mode := .between, progress, scalars }

theorem Passes.reads {text : List Char} (h : r.Passes text progress) : r.Reads text progress := by
  obtain ⟨scalars, run⟩ := h
  exact fun c rest _ => ⟨scalars, run_append_of_eq run _⟩

theorem begin_word {c : Char} (plain : endsBare c = false) :
    r.begin c = some { r with mode := .bare [c] } := by
  simp only [endsBare, Bool.or_eq_false_iff] at plain
  obtain ⟨⟨⟨⟨⟨⟨⟨blank, comma⟩, colon⟩, quote⟩, openArray⟩, closeArray⟩, openObject⟩, closeObject⟩ := plain
  simp [begin, blank, comma, colon, quote, openArray, closeArray, openObject, closeObject]

theorem run_bare {word : List Char} (plain : ∀ c ∈ word, endsBare c = false) (chars rest : List Char) :
    ({ r with mode := .bare chars } : Reader).run (word ++ rest) =
      ({ r with mode := .bare (word.reverse ++ chars) } : Reader).run rest := by
  induction word generalizing chars with
  | nil => rfl
  | cons c word ih =>
      have inside := plain c (List.mem_cons_self ..)
      have step : ({ r with mode := .bare chars } : Reader).step c =
          some { r with mode := .bare (c :: chars) } := by simp [step, inside]
      rw [List.cons_append, run_cons, step, Option.bind_some,
        ih fun x member => plain x (List.mem_cons_of_mem _ member), List.reverse_cons, List.append_assoc]
      rfl

theorem reads_word (between : r.mode = .between) {word : List Char} {value : Value}
    (hw : Word word value) (taken : r.progress.take? (.scalar value) = some progress) :
    r.Reads word progress := by
  obtain ⟨x, more, rfl⟩ := List.exists_cons_of_ne_nil hw.nonempty
  intro c rest ends
  have plain := List.forall_mem_cons.mp hw.plain
  have letters : r.run (x :: (more ++ c :: rest)) =
      ({ r with mode := .bare (more.reverse ++ [x]) } : Reader).run (c :: rest) := by
    rw [run_between between, begin_word plain.1.1, Option.bind_some,
      run_bare fun y member => (plain.2 y member).1]
  have word : (more.reverse ++ [x]).reverse = x :: more := by simp
  have ended : ({ r with mode := .bare (more.reverse ++ [x]) } : Reader).endBare (more.reverse ++ [x]) =
      some { r with mode := .between, progress, scalars := r.scalars + 1 } := by
    rw [endBare, word, hw.read]
    simp [emit, taken]
  refine ⟨r.scalars + 1, ?_⟩
  rw [List.cons_append, letters, run_cons, step, run_between rfl]
  simp only [ends, if_true, ended, Option.bind_some, bind]

end Reader

/-- A visible text that is read as a value by a reader with room for containers of some depth. -/
structure Legible (depth : Nat) (text : String) (value : Value) : Prop where
  visible : ∀ c ∈ text.toList, isVisible c
  reads {r : Reader} {frames : List Frame} {progress : Progress} : r.mode = .between →
    Awaits r.progress frames → frames.length + depth ≤ maxDepth → put frames value = some progress →
      r.Reads text.toList progress

theorem Legible.mono {depth depth' : Nat} {text : String} {value : Value}
    (h : Legible depth text value) (le : depth ≤ depth') : Legible depth' text value where
  visible := h.visible
  reads between awaits room := h.reads between awaits (by omega)

theorem legible_word {word : String} {value : Value} (hw : Word word.toList value) :
    Legible 0 word value where
  visible c member := (hw.plain c member).2
  reads between awaits _ hput := Reader.reads_word between hw ((take?_scalar awaits value).trans hput)

theorem visible_escapeChar (c : Char) : ∀ x ∈ escapeChar c, isVisible x := by
  have marked (letter : Char) (h : isVisible letter) : ∀ x ∈ ['\\', letter], isVisible x :=
    List.forall_mem_cons.mpr ⟨rfl, List.forall_mem_cons.mpr ⟨h, by simp⟩⟩
  have digits : ∀ d < 16, isVisible (Nat.digitChar d) := by decide
  unfold escapeChar
  split
  · exact marked _ rfl
  split
  · exact marked _ rfl
  split
  · exact marked _ rfl
  split
  · exact marked _ rfl
  split
  · exact marked _ rfl
  split
  · exact marked _ rfl
  split
  · exact marked _ rfl
  split
  · next printable =>
    intro x member
    rw [List.mem_singleton.mp member]
    exact printable
  · intro x member
    obtain ⟨unit, hunit, member⟩ := List.mem_flatMap.mp member
    have small := utf16Units_lt c unit hunit
    rw [hex_four small] at member
    simp only [List.mem_cons, List.not_mem_nil, or_false] at member
    rcases member with rfl | rfl | rfl | rfl | rfl | rfl
    · rfl
    · rfl
    all_goals exact digits _ (by omega)

theorem visible_string (s : String) : ∀ c ∈ (string s).toList, isVisible c := by
  intro c member
  rw [string, String.toList_ofList, List.cons_append] at member
  rcases List.mem_cons.mp member with rfl | member
  · rfl
  rcases List.mem_append.mp member with member | member
  · obtain ⟨x, -, member⟩ := List.mem_flatMap.mp member
    exact visible_escapeChar x c member
  · rw [List.mem_singleton.mp member]
    rfl

/-- A string passes the reader where a text is taken. -/
theorem Reader.passes_string {r : Reader} {progress : Progress} (between : r.mode = .between)
    {s : String} (taken : r.progress.take? (.scalar (.text s)) = some progress) :
    r.Passes (string s).toList progress := by
  refine ⟨r.scalars, ?_⟩
  rw [run_string s between, emit_of_take? taken]

theorem legible_string (s : String) : Legible 0 (string s) (.text s) where
  visible := visible_string s
  reads between awaits _ hput :=
    (Reader.passes_string between ((take?_scalar awaits _).trans hput)).reads

/-- The parts of a container after its first one. -/
def joined (texts : List String) : List Char :=
  texts.flatMap fun text => ',' :: ' ' :: text.toList

theorem toList_container (depth : Nat) (opening closing first : String) (others : List String) :
    (Layout.line.container depth opening closing (first :: others)).toList =
      opening.toList ++ (first.toList ++ (joined others ++ closing.toList)) := by
  simp [Layout.container, joined, List.flatMap_map]

/-- Behind a part comes a character that ends a word: a comma, or the closing mark. -/
theorem joined_ends (texts : List String) {closing : Char} (ends : endsBare closing) :
    ∃ c rest, joined texts ++ [closing] = c :: rest ∧ endsBare c := by
  cases texts with
  | nil => exact ⟨closing, [], rfl, ends⟩
  | cons text texts => exact ⟨',', _, rfl, rfl⟩

/-- A part that is read in front of the others brings the reader to them. -/
theorem Reader.Reads.to_joined {r : Reader} {text : List Char} {progress : Progress}
    (h : r.Reads text progress) (texts : List String) (closing : Char) (ends : endsBare closing) :
    ∃ scalars, r.run (text ++ (joined texts ++ [closing])) =
      ({ r with mode := .between, progress, scalars } : Reader).run (joined texts ++ [closing]) := by
  obtain ⟨c, rest, later, hc⟩ := joined_ends texts ends
  rw [later]
  exact h c rest hc

theorem visible_container (depth : Nat) {opening closing : String} {texts : List String}
    (hopening : ∀ c ∈ opening.toList, isVisible c) (hclosing : ∀ c ∈ closing.toList, isVisible c)
    (h : ∀ text ∈ texts, ∀ c ∈ text.toList, isVisible c) :
    ∀ c ∈ (Layout.line.container depth opening closing texts).toList, isVisible c := by
  cases texts with
  | nil =>
      intro c member
      simp only [Layout.container, String.toList_append] at member
      exact (List.mem_append.mp member).elim (hopening c) (hclosing c)
  | cons first others =>
      intro c member
      rw [toList_container] at member
      rcases List.mem_append.mp member with member | member
      · exact hopening c member
      rcases List.mem_append.mp member with member | member
      · exact h first (List.mem_cons_self ..) c member
      rcases List.mem_append.mp member with member | member
      · obtain ⟨text, htext, member⟩ := List.mem_flatMap.mp member
        rcases List.mem_cons.mp member with rfl | member
        · rfl
        rcases List.mem_cons.mp member with rfl | member
        · rfl
        · exact h text (List.mem_cons_of_mem _ htext) c member
      · exact hclosing c member

section

variable {depth : Nat} {frames : List Frame} {progress : Progress}

/-- The items of an array after its first ones, up to its end. -/
theorem Reader.passes_items {texts : List String} {items : List Value}
    (h : List.Forall₂ (Legible depth) texts items) {r : Reader} (between : r.mode = .between)
    {before : List Value} (state : r.progress = .unfinished .separator (.array before :: frames))
    (room : frames.length + (depth + 1) ≤ maxDepth)
    (hput : put frames (.list (before.reverse ++ items)) = some progress) :
    r.Passes (joined texts ++ [']']) progress := by
  -- the frame keeps what was read newest first, so the items before go along in the induction
  induction h generalizing r before with
  | nil =>
      have taken : r.progress.take? .closeArray = some progress := by
        rw [state, ← hput, List.append_nil]
        rfl
      exact ⟨r.scalars, run_token between rfl taken []⟩
  | @cons text item texts items head _ ih =>
      have comma : r.progress.take? .comma =
          some (.unfinished .value (.array before :: frames)) := by rw [state]; rfl
      have part := head.reads (r := { r with
        mode := .between, progress := .unfinished .value (.array before :: frames) }) rfl (.inl rfl)
        (by rw [List.length_cons]; omega) rfl
      obtain ⟨scalars, read⟩ := part.to_joined texts ']' rfl
      obtain ⟨later, rest⟩ := ih (r := { r with
        mode := .between, progress := .unfinished .separator (.array (item :: before) :: frames),
        scalars }) rfl rfl (by simpa using hput)
      refine ⟨later, ?_⟩
      calc r.run (joined (text :: texts) ++ [']'])
          = r.run (',' :: ' ' :: (text.toList ++ (joined texts ++ [']']))) := by simp [joined]
        _ = some { r with mode := .between, progress, scalars := later } := by
          rw [run_token between rfl comma, run_space rfl, read, rest]

theorem legible_array {texts : List String} {items : List Value}
    (h : List.Forall₂ (Legible depth) texts items) (level : Nat) :
    Legible (depth + 1) (Layout.line.container level "[" "]" texts) (.list items) where
  visible := by
    refine visible_container level (by simp [isVisible]) (by simp [isVisible]) fun text member => ?_
    obtain ⟨item, -, legible⟩ := exists_right_of_forall₂ h member
    exact legible.visible
  reads := by
    intro r frames progress between awaits room hput
    have opened := take?_openArray awaits (by omega)
    refine Reader.Passes.reads ?_
    cases h with
    | nil =>
        have closed : Progress.take? (.unfinished .valueOrClose (.array [] :: frames)) .closeArray =
            some progress := hput
        refine ⟨r.scalars, ?_⟩
        calc r.run (Layout.line.container level "[" "]" []).toList
            = r.run ['[', ']'] := by simp [Layout.container]
          _ = some { r with mode := .between, progress } := by
            rw [Reader.run_token between rfl opened, Reader.run_token rfl rfl closed, Reader.run_nil]
    | @cons text item texts items head others =>
        have part := head.reads (r := { r with
          mode := .between, progress := .unfinished .valueOrClose (.array [] :: frames) }) rfl (.inr rfl)
          (by rw [List.length_cons]; omega) rfl
        obtain ⟨scalars, read⟩ := part.to_joined texts ']' rfl
        obtain ⟨later, rest⟩ := Reader.passes_items others (r := { r with
          mode := .between, progress := .unfinished .separator (.array [item] :: frames),
          scalars }) rfl rfl room hput
        refine ⟨later, ?_⟩
        calc r.run (Layout.line.container level "[" "]" (text :: texts)).toList
            = r.run ('[' :: (text.toList ++ (joined texts ++ [']']))) := by
              rw [toList_container]
              rfl
          _ = some { r with mode := .between, progress, scalars := later } := by
            rw [Reader.run_token between rfl opened, read, rest]

theorem setField_fresh {key : String} {fields : List (String × Value)}
    (fresh : key ∉ fields.map Prod.fst) (value : Value) :
    setField key value fields = (key, value) :: fields := by
  have none : fields.any (·.1 == key) = false := by
    refine Bool.eq_false_iff.mpr fun some => fresh ?_
    obtain ⟨field, member, same⟩ := List.any_eq_true.mp some
    exact List.mem_map.mpr ⟨field, member, eq_of_beq same⟩
  rw [setField, none]
  rfl

/-- A text that is legible as a field: its key, and a text legible as its value. -/
def LegibleField (depth : Nat) (text : String) (field : String × Value) : Prop :=
  ∃ value, text = string field.1 ++ ": " ++ value ∧ Legible depth value field.2

theorem LegibleField.visible {text : String} {field : String × Value}
    (h : LegibleField depth text field) : ∀ c ∈ text.toList, isVisible c := by
  obtain ⟨value, rfl, legible⟩ := h
  intro c member
  rw [String.toList_append, String.toList_append] at member
  rcases List.mem_append.mp member with member | member
  · rcases List.mem_append.mp member with member | member
    · exact visible_string _ c member
    · rcases List.mem_cons.mp member with rfl | member
      · rfl
      · rw [List.mem_singleton.mp member]
        rfl
  · exact legible.visible c member

/-- A field is read where a key is expected. -/
theorem Reader.reads_field {text : String} {field : String × Value}
    (h : LegibleField depth text field) {r : Reader} (between : r.mode = .between)
    {before : List (String × Value)}
    (state : ∀ key, r.progress.take? (.scalar (.text key)) =
      some (.unfinished .colon (.field before key :: frames)))
    (room : frames.length + (depth + 1) ≤ maxDepth) (fresh : field.1 ∉ before.map Prod.fst) :
    r.Reads text.toList (.unfinished .separator (.object (field :: before) :: frames)) := by
  obtain ⟨value, rfl, legible⟩ := h
  obtain ⟨key, item⟩ := field
  obtain ⟨scalars, named⟩ := passes_string between (state key)
  intro c rest ends
  have colon : Progress.take? (.unfinished .colon (.field before key :: frames)) .colon =
      some (.unfinished .value (.field before key :: frames)) := rfl
  have accepted : put (.field before key :: frames) item =
      some (.unfinished .separator (.object ((key, item) :: before) :: frames)) := by
    rw [put, setField_fresh fresh]
  obtain ⟨later, read⟩ := legible.reads (r := { r with
    mode := .between, progress := .unfinished .value (.field before key :: frames), scalars }) rfl
    (.inl rfl) (by rw [List.length_cons]; omega) accepted c rest ends
  refine ⟨later, ?_⟩
  calc r.run ((string key ++ ": " ++ value).toList ++ c :: rest)
      = r.run ((string key).toList ++ ':' :: ' ' :: (value.toList ++ c :: rest)) := by simp
    _ = _ := by rw [run_append_of_eq named, run_token rfl rfl colon, run_space rfl, read]

/-- The fields of an object after its first ones, up to its end. -/
theorem Reader.passes_fields {texts : List String} {fields : List (String × Value)}
    (h : List.Forall₂ (LegibleField depth) texts fields) {r : Reader} (between : r.mode = .between)
    {before : List (String × Value)}
    (state : r.progress = .unfinished .separator (.object before :: frames))
    (room : frames.length + (depth + 1) ≤ maxDepth)
    (distinct : ((before.reverse ++ fields).map Prod.fst).Nodup)
    (hput : put frames (.object (before.reverse ++ fields)) = some progress) :
    r.Passes (joined texts ++ ['\x7d']) progress := by
  induction h generalizing r before with
  | nil =>
      have taken : r.progress.take? .closeObject = some progress := by
        rw [state, ← hput, List.append_nil]
        rfl
      exact ⟨r.scalars, run_token between rfl taken []⟩
  | @cons text field texts fields head _ ih =>
      have comma : r.progress.take? .comma =
          some (.unfinished .key (.object before :: frames)) := by rw [state]; rfl
      have fresh : field.1 ∉ before.map Prod.fst := by
        intro member
        rw [List.map_append, List.map_reverse] at distinct
        exact List.disjoint_of_nodup_append distinct (List.mem_reverse.mpr member)
          (List.mem_cons_self ..)
      have part := reads_field head (r := { r with
        mode := .between, progress := .unfinished .key (.object before :: frames) }) rfl
        (fun key => rfl) room fresh
      obtain ⟨scalars, read⟩ := part.to_joined texts '\x7d' rfl
      obtain ⟨later, rest⟩ := ih (r := { r with
        mode := .between, progress := .unfinished .separator (.object (field :: before) :: frames),
        scalars }) rfl rfl (by simpa using distinct) (by simpa using hput)
      refine ⟨later, ?_⟩
      calc r.run (joined (text :: texts) ++ ['\x7d'])
          = r.run (',' :: ' ' :: (text.toList ++ (joined texts ++ ['\x7d']))) := by simp [joined]
        _ = some { r with mode := .between, progress, scalars := later } := by
          rw [run_token between rfl comma, run_space rfl, read, rest]

theorem legible_object {texts : List String} {fields : List (String × Value)}
    (h : List.Forall₂ (LegibleField depth) texts fields) (distinct : (fields.map Prod.fst).Nodup)
    (level : Nat) :
    Legible (depth + 1) (Layout.line.container level "\x7b" "\x7d" texts) (.object fields) where
  visible := by
    refine visible_container level (by simp [isVisible]) (by simp [isVisible]) fun text member => ?_
    obtain ⟨field, -, legible⟩ := exists_right_of_forall₂ h member
    exact legible.visible
  reads := by
    intro r frames progress between awaits room hput
    have opened := take?_openObject awaits (by omega)
    refine Reader.Passes.reads ?_
    cases h with
    | nil =>
        have closed : Progress.take? (.unfinished .keyOrClose (.object [] :: frames)) .closeObject =
            some progress := hput
        refine ⟨r.scalars, ?_⟩
        calc r.run (Layout.line.container level "\x7b" "\x7d" []).toList
            = r.run ['\x7b', '\x7d'] := by simp [Layout.container]
          _ = some { r with mode := .between, progress } := by
            rw [Reader.run_token between rfl opened, Reader.run_token rfl rfl closed, Reader.run_nil]
    | @cons text field texts fields head others =>
        have part := Reader.reads_field head (r := { r with
          mode := .between, progress := .unfinished .keyOrClose (.object [] :: frames) }) rfl
          (fun key => rfl) room (by simp)
        obtain ⟨scalars, read⟩ := part.to_joined texts '\x7d' rfl
        obtain ⟨later, rest⟩ := Reader.passes_fields others (r := { r with
          mode := .between, progress := .unfinished .separator (.object [field] :: frames),
          scalars }) rfl rfl room distinct hput
        refine ⟨later, ?_⟩
        calc r.run (Layout.line.container level "\x7b" "\x7d" (text :: texts)).toList
            = r.run ('\x7b' :: (text.toList ++ (joined texts ++ ['\x7d']))) := by
              rw [toList_container]
              rfl
          _ = some { r with mode := .between, progress, scalars := later } := by
            rw [Reader.run_token between rfl opened, read, rest]

end

/-- A text is complete where a space after it would leave a complete value. -/
theorem Reader.finish_of_space {r next : Reader} {value : Value} (h : r.step ' ' = some next)
    (between : next.mode = .between) (complete : next.progress = .complete value) :
    r.finish = some value := by
  -- a space leaves the reader between tokens only when it was there or behind a word
  unfold step at h
  split at h
  · next mode =>
    obtain rfl := (Option.some.inj h).symm
    simp only at complete
    simp [finish, mode, complete]
  · next chars mode =>
    obtain ⟨ended, hended, h⟩ := Option.bind_eq_some_iff.mp h
    obtain rfl := (Option.some.inj h).symm
    simp only at complete
    simp [finish, mode, hended, complete]
  · next chars mode =>
    obtain rfl := (Option.some.inj h).symm
    cases between
  · cases h
  · cases h
  · cases h
  · cases h

/-- A legible text is read as its value. -/
theorem Legible.read? {depth : Nat} {text : String} {value : Value} (h : Legible depth text value)
    (room : depth ≤ maxDepth) (line : Nat) : read? line text = some value := by
  have start : put [] value = some (.complete value) := rfl
  obtain ⟨scalars, read⟩ := h.reads (r := { line }) rfl (.inl rfl) (by simpa using room) start ' ' [] rfl
  rw [Reader.run_append, Reader.run_space rfl, Reader.run_nil] at read
  obtain ⟨last, hlast, read⟩ := Option.bind_eq_some_iff.mp read
  rw [Reader.run_cons] at read
  obtain ⟨next, hnext, read⟩ := Option.bind_eq_some_iff.mp read
  obtain rfl := Option.some.inj read
  have finished := Reader.finish_of_space hnext rfl rfl
  calc Json.read? line text = (({ line } : Reader).run text.toList).bind Reader.finish := rfl
    _ = some value := by rw [hlast, Option.bind_some, finished]

end QueryHarvest.Json
