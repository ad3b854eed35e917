import QueryHarvest.Proofs.Sql.Layout
import QueryHarvest.Proofs.Text.Characters

/-! # Lexemes of a laid-out statement

What is read at a place depends on the text from there on: a comment as far as it goes, one blank, or a
part of a token.
-/

namespace QueryHarvest.Sql

open Text

theorem sameLetter_eq_beq {mark : Char} (low : mark.toNat < 0x60) (visible : mark ≠ Char.ofNat 0)
    (own : (lowerChar mark).head? = some mark) (c : Char) : sameLetter mark c = (mark == c) := by
  rw [Bool.eq_iff_iff, sameLetter, Bool.or_eq_true, or_iff_left_iff_imp, beq_iff_eq, beq_iff_eq]
  intro same
  exact (eq_of_mem_lowerChar low visible (List.mem_of_mem_head? (same ▸ own))).symm

/-- A comment goes up to the first closing mark. -/
theorem lengthThrough?_unclosed {body : List Char} (h : ¬ ['*', '/'] <:+: body) (rest : List Char) :
    lengthThrough? ['*', '/'] (body ++ '*' :: '/' :: rest) = some (body.length + 2) := by
  have star := @sameLetter_eq_beq '*' (by decide) (by decide) (by decide)
  have slash := @sameLetter_eq_beq '/' (by decide) (by decide) (by decide)
  induction body with
  | nil => simp [lengthThrough?, startsWith, star, slash]
  | cons c body ih =>
      have elsewhere : startsWith ['*', '/'] (c :: (body ++ '*' :: '/' :: rest)) = false := by
        cases body with
        | nil => simp [startsWith, slash]
        | cons d body =>
            refine Bool.eq_false_iff.mpr fun here => h ?_
            simp only [startsWith, List.cons_append, star, slash, Bool.and_true, Bool.and_eq_true,
              beq_iff_eq] at here
            obtain ⟨rfl, rfl⟩ := here
            exact ⟨[], body, rfl⟩
      have later : ¬ ['*', '/'] <:+: body :=
        fun inside => h (inside.trans (List.suffix_cons c body).isInfix)
      rw [List.cons_append, lengthThrough?, elsewhere, ih later]
      rfl

@[simp] theorem lengthOfLine_body {body : List Char} (whole : '\r' ∉ body ∧ '\n' ∉ body) (rest : List Char) :
    lengthOfLine (body ++ rest) = body.length + lengthOfLine rest := by
  induction body with
  | nil => simp
  | cons c body ih =>
      obtain ⟨returns, feeds⟩ := whole
      rw [List.mem_cons, not_or] at returns feeds
      rw [List.cons_append, lengthOfLine, ih ⟨returns.2, feeds.2⟩]
      · have inside : (c == '\r' || c == '\n') = false := by
          rw [beq_false_of_ne (Ne.symm returns.1), beq_false_of_ne (Ne.symm feeds.1), Bool.or_false]
        rw [inside, if_neg Bool.false_ne_true, List.length_cons]
        omega
      · exact fun _ same => absurd same.symm returns.1

section

variable {before : Option Char} {rest : List Char}

theorem dollarBody?_eq_none {c : Cursor} (h : dollarTag? c.rest = none) : dollarBody? c = none := by
  rw [dollarBody?, h]
  split <;> rfl

@[simp] theorem blockComment?_spelled (comment : BlockComment) :
    blockComment? (comment.spelled ++ rest) = some (false, comment.spelled.length) := by
  have plain := comment.plain
  have shown : comment.spelled ++ rest = '/' :: '*' :: (comment.body ++ '*' :: '/' :: rest) := by
    simp [BlockComment.spelled]
  rw [shown, blockComment?, lengthThrough?_unclosed comment.unclosed]
  · simp [BlockComment.spelled]
  · intro tail same
    cases body : comment.body with
    | nil =>
        rw [body] at same
        cases same
    | cons c others =>
        rw [body] at same plain
        cases same
        exact plain rfl

@[simp] theorem lexemeAt_block (comment : BlockComment) :
    lexemeAt ⟨before, comment.spelled ++ rest⟩ = ⟨true, comment.spelled.length⟩ := by
  have found := @blockComment?_spelled rest comment
  rw [lexemeAt, dollarBody?_eq_none rfl]
  simp [found]

theorem lexemeAt_line (comment : LineComment) (stops : Stops (· == '+') rest) :
    lexemeAt ⟨before, comment.spelled ++ rest⟩ =
      ⟨true, comment.spelled.length + lengthOfLine rest⟩ := by
  have hint : ((comment.body ++ rest).head? == some '+') = false := by
    have plain := comment.plain
    cases body : comment.body with
    | nil =>
        cases rest with
        | nil => rfl
        | cons x rest => simpa using stops x rfl
    | cons c others =>
        rw [body] at plain
        simpa using plain
  rw [lexemeAt, dollarBody?_eq_none rfl]
  simp only [LineComment.spelled, List.cons_append, blockComment?, lineComment?, hint,
    lengthOfLine_body comment.whole]
  simp
  omega

theorem lexemeAt_unmarked {text : List Char} (tag : dollarTag? text = none)
    (block : blockComment? text = none) (line : lineComment? text = none)
    (quoted : quotedPiece? text = none) (bracket : text.head? ≠ some '[') :
    lexemeAt ⟨before, text⟩ = ⟨false, (wordLength? text <|> operatorLength? text).getD 1⟩ := by
  have bracketed : bracketed? ⟨before, text⟩ = none := by
    rw [bracketed?]
    split
    · rfl
    · split
      · next inside =>
        cases inside
        exact absurd rfl bracket
      · rfl
  rw [lexemeAt, dollarBody?_eq_none tag]
  simp [block, line, quoted, bracketed]

/-- The characters that comments, quotes, brackets and dollar signs begin with. -/
def openingMarks : List Char := ['$', '/', '-', '#', '[', '\x60', '\x27', '\x22']

theorem lexemeAt_of_not_mem {c : Char} (h : c ∉ openingMarks) :
    lexemeAt ⟨before, c :: rest⟩ =
      ⟨false, (wordLength? (c :: rest) <|> operatorLength? (c :: rest)).getD 1⟩ := by
  simp only [openingMarks, List.mem_cons, List.not_mem_nil, or_false, not_or] at h
  obtain ⟨dollar, slash, minus, hash, bracket, grave, quote, double⟩ := h
  refine lexemeAt_unmarked ?_ ?_ ?_ ?_ (by simpa using bracket)
  · rw [dollarTag?] <;> simp [dollar]
  · rw [blockComment?] <;> simp [slash]
  · rw [lineComment?] <;> simp [minus, hash]
  · simp [quotedPiece?, grave, quote, double]

theorem operatorLength?_eq_none {c : Char} (single : isOperatorChar c = false)
    (arrow : c = '<' → rest.head? ≠ some '@') : operatorLength? (c :: rest) = none := by
  unfold operatorLength?
  split <;> simp_all
  all_goals contradiction

theorem lexemeAt_blank {c : Char} (h : isBlank c) : lexemeAt ⟨before, c :: rest⟩ = ⟨false, 1⟩ := by
  have apart {marks : List Char} (visible : marks.all (!isBlank ·)) : c ∉ marks := by
    intro member
    have shown := List.all_eq_true.mp visible c member
    rw [h] at shown
    cases shown
  have sigil : c ∉ ['$', ':', '?', '<'] := apart (by decide)
  have word : wordLength? (c :: rest) = none := by
    simp only [List.mem_cons, List.not_mem_nil, or_false, not_or] at sigil
    simp [wordLength?, isWord_of_isBlank h, sigil]
  have signs : c ∉ ['+', '/', '@', '#', '%', '^', '&', '|', '-'] := apart (by decide)
  have single : isOperatorChar c = false := by
    simpa [isOperatorChar] using signs
  have operator : operatorLength? (c :: rest) = none :=
    operatorLength?_eq_none single fun same => absurd (same ▸ by simp) sigil
  rw [lexemeAt_of_not_mem (apart (by decide)), word, operator]
  rfl

end

/-- What a character of a token is to the reader of lexemes. -/
structure TokenPart (c : Char) : Prop where
  unmarked : c = '$' ∨ c ∉ openingMarks
  single : isOperatorChar c = false
  noSigil : c ∉ [':', '?', ';']

theorem tokenPart {c : Char} (h : isTokenChar c) : TokenPart c := by
  have facts : isTokenChar c → (c = '$' ∨ c ∉ openingMarks) ∧ isOperatorChar c = false ∧
      c ∉ [':', '?', ';'] :=
    of_ascii (ascii_of_isTokenChar h) (by decide +kernel)
  obtain ⟨unmarked, single, noSigil⟩ := facts h
  exact ⟨unmarked, single, noSigil⟩

/-- A token ends where the text does, at a blank, or at a comment to the end of the line. -/
def EndsToken (rest : List Char) : Prop :=
  ∀ x ∈ rest.head?, isBlank x ∨ x = '-'

theorem EndsToken.stops {rest : List Char} (h : EndsToken rest) {test : Char → Bool}
    (blanks : ∀ x, isBlank x → test x = false) (minus : test '-' = false) : Stops test rest := by
  intro x first
  rcases h x first with blank | rfl
  · exact blanks x blank
  · exact minus

theorem takeWhile_append {test : Char → Bool} {rest : List Char} (stops : Stops test rest)
    (text : List Char) : (text ++ rest).takeWhile test = text.takeWhile test := by
  induction text with
  | nil =>
      cases rest with
      | nil => rfl
      | cons x rest => simp [stops x rfl]
  | cons c text ih => rw [List.cons_append, List.takeWhile_cons, List.takeWhile_cons, ih]

theorem isTagStart_of_isDigit {c : Char} (h : c.isDigit) :
    isTagStart c = false ∧ c ≠ '$' ∧ isWord c := by
  have facts : c.isDigit → isTagStart c = false ∧ c ≠ '$' ∧ isWord c :=
    of_ascii (ascii_of_isDigit h) (by decide +kernel)
  exact facts h

section

variable {c : Char} {letters rest : List Char}

/-- Whatever is read of a token as long as its characters pass a test does not go beyond it. -/
theorem length_takeWhile_le {test : Char → Bool} (stops : Stops test rest) :
    ((letters ++ rest).takeWhile test).length ≤ letters.length := by
  rw [takeWhile_append stops]
  exact (List.takeWhile_sublist test).length_le

theorem lexemeAt_placeholder (h : isTokenText ('$' :: letters)) (ends : EndsToken rest) :
    ∃ n ≤ letters.length, ∀ before, lexemeAt ⟨before, '$' :: (letters ++ rest)⟩ = ⟨false, n + 1⟩ := by
  simp only [isTokenText, Bool.and_eq_true] at h
  obtain ⟨⟨-, digit⟩, -⟩ := h
  cases letters with
  | nil => contradiction
  | cons d letters =>
      obtain ⟨noTag, differs, word⟩ := isTagStart_of_isDigit (c := d) (by simpa using digit)
      refine ⟨((d :: letters ++ rest).takeWhile isWord).length,
        length_takeWhile_le (ends.stops (fun _ => isWord_of_isBlank) (by decide)), fun before => ?_⟩
      rw [lexemeAt_unmarked _ rfl rfl rfl (by simp)]
      · simp [wordLength?, word, show isWord '$' = false from rfl]
      · rw [List.cons_append, dollarTag?]
        · simp [noTag]
        · simp [differs]

theorem head?_ne_at (h : isTokenText letters) (ends : EndsToken rest) :
    (letters ++ rest).head? ≠ some '@' := by
  cases letters with
  | nil =>
      intro first
      rcases ends '@' first with blank | same
      · exact absurd blank (by decide)
      · exact absurd same (by decide)
  | cons c letters =>
      simp only [isTokenText, Bool.and_eq_true] at h
      obtain ⟨⟨char, -⟩, -⟩ := h
      rintro first
      cases first
      exact absurd char (by decide)

/-- A token begins with a lexeme that is kept and does not go beyond it. -/
theorem lexemeAt_token (h : isTokenText (c :: letters)) (ends : EndsToken rest) :
    ∃ n ≤ letters.length, ∀ before, lexemeAt ⟨before, c :: (letters ++ rest)⟩ = ⟨false, n + 1⟩ := by
  have parts := h
  simp only [isTokenText, Bool.and_eq_true] at parts
  obtain ⟨⟨char, -⟩, others⟩ := parts
  have part := tokenPart char
  rcases part.unmarked with rfl | unmarked
  · exact lexemeAt_placeholder h ends
  simp only [lexemeAt_of_not_mem unmarked]
  cases word : isWord c with
  | true =>
      have stops : Stops (fun x => isWord x || x == '$' || x == '#') rest := by
        refine ends.stops (fun x blank => ?_) (by decide)
        have sigil : x ≠ '$' ∧ x ≠ '#' := by
          constructor <;> rintro rfl <;> exact absurd blank (by decide)
        simp [isWord_of_isBlank blank, sigil]
      refine ⟨_, length_takeWhile_le stops, fun _ => ?_⟩
      simp [wordLength?, word, Nat.add_comm]
  | false =>
      have noWord : wordLength? (c :: (letters ++ rest)) = none := by
        have sigil := part.noSigil
        simp only [openingMarks, List.mem_cons, not_or] at unmarked sigil
        simp [wordLength?, word, unmarked.1, sigil.1, sigil.2.1]
      refine ⟨0, Nat.zero_le _, fun _ => ?_⟩
      rw [noWord, operatorLength?_eq_none part.single fun _ => head?_ne_at others ends]
      rfl

end

end QueryHarvest.Sql
