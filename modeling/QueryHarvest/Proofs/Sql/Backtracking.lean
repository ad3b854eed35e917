import QueryHarvest.Proofs.Sql.Shapes
import QueryHarvest.Proofs.Text.Characters
import QueryHarvest.Sql.Table

/-! # Reading without going back

A reader that goes back tries to read every piece in all the ways there are, a longer run before a
shorter one, until the pieces behind it fit. It finds what the reader of shapes finds: behind a run that
is cut short stands a character of that run, and no piece that follows it in the shape of a predicate
begins with one.
-/

namespace QueryHarvest.Text

/-- The ways to read, the first one being read: there are none, or behind all others stands a character
that reading on would have taken. -/
inductive Greedy {α : Type} (test : Char → Bool) : Option (α × Cursor) → List (α × Cursor) → Prop where
  | missed : Greedy test none []
  | found {way : α × Cursor} {others : List (α × Cursor)}
      (givenBack : ∀ other ∈ others, ∃ x ∈ other.2.rest.head?, test x) :
      Greedy test (some way) (way :: others)

namespace Greedy

variable {α β : Type} {test wider : Char → Bool} {read : Option (α × Cursor)} {ways : List (α × Cursor)}

theorem toList (test : Char → Bool) (read : Option (α × Cursor)) : Greedy test read read.toList := by
  cases read with
  | none => exact .missed
  | some way => exact .found (by simp)

theorem mono (h : Greedy test read ways) (wide : ∀ x, test x → wider x) : Greedy wider read ways := by
  cases h with
  | missed => exact .missed
  | found givenBack =>
      refine .found fun other member => ?_
      obtain ⟨x, shown, passes⟩ := givenBack other member
      exact ⟨x, shown, wide x passes⟩

theorem map (h : Greedy test read ways) (note : α → Cursor → β) :
    Greedy test (read.map fun (a, after) => (note a after, after))
      (ways.map fun (a, after) => (note a after, after)) := by
  cases h with
  | missed => exact .missed
  | found givenBack =>
      refine .found fun other listed => ?_
      obtain ⟨way, member, rfl⟩ := List.mem_map.mp listed
      exact givenBack way member

/-- More ways that give something back may follow. -/
theorem append {way : α × Cursor} {more : List (α × Cursor)} (h : Greedy test (some way) ways)
    (givenBack : ∀ other ∈ more, ∃ x ∈ other.2.rest.head?, test x) :
    Greedy test (some way) (ways ++ more) := by
  cases h with
  | found earlier =>
      refine .found fun other member => ?_
      rcases List.mem_append.mp member with member | member
      · exact earlier other member
      · exact givenBack other member

/-- Of all the ways the first one is found, if no other goes on. -/
theorem findSome? (h : Greedy test read ways) {goOn : α × Cursor → Option β}
    (stuck : ∀ way : α × Cursor, (∃ x ∈ way.2.rest.head?, test x) → goOn way = none) :
    ways.findSome? goOn = read.bind goOn := by
  cases h with
  | missed => rfl
  | @found way others givenBack =>
      have nothing : others.findSome? goOn = none := by
        rw [List.findSome?_eq_none_iff]
        exact fun other member => stuck other (givenBack other member)
      rw [List.findSome?_cons, Option.bind_some]
      cases goOn way with
      | none => exact nothing
      | some => rfl

end Greedy

namespace Cursor

/-- The ways to read characters that pass a test, a longer run before a shorter one. -/
def runsFrom (test : Char → Bool) : Option Char → List Char → List (List Char × Cursor)
  | before, [] => [([], ⟨before, []⟩)]
  | before, x :: rest =>
    (if test x then (runsFrom test (some x) rest).map fun (read, after) => (x :: read, after) else []) ++
      [([], ⟨before, x :: rest⟩)]

def runs (test : Char → Bool) (c : Cursor) : List (List Char × Cursor) :=
  runsFrom test c.before c.rest

/-- The ways to read at least one character that passes a test. -/
def runs1 (test : Char → Bool) (c : Cursor) : List (List Char × Cursor) :=
  match c.rest with
  | [] => []
  | x :: rest =>
    if test x then (runsFrom test (some x) rest).map fun (read, after) => (x :: read, after) else []

/-- The ways to read an identifier. -/
def identifiers (c : Cursor) : List (List Char × Cursor) :=
  match c.rest with
  | [] => []
  | x :: _ => if isIdentStart x then c.runs1 isIdentPart else []

variable {test : Char → Bool}

theorem span_cons {before : Option Char} {x : Char} {rest : List Char} (passes : test x) :
    span test ⟨before, x :: rest⟩ =
      (x :: (span test ⟨some x, rest⟩).1, (span test ⟨some x, rest⟩).2) := by
  simp only [span, List.takeWhile_cons_of_pos passes, List.dropWhile_cons_of_pos passes,
    List.getLast?_cons]
  cases (rest.takeWhile test).getLast? <;> rfl

theorem greedy_runs (test : Char → Bool) (c : Cursor) : Greedy test (some (c.span test)) (c.runs test) := by
  obtain ⟨before, text⟩ := c
  rw [runs]
  induction text generalizing before with
  | nil => exact .found (by simp)
  | cons x rest ih =>
      simp only [runsFrom]
      cases passes : test x with
      | false =>
          have none_read : span test ⟨before, x :: rest⟩ = ([], ⟨before, x :: rest⟩) := by
            simp [span, passes]
          rw [none_read]
          exact .found (by simp)
      | true =>
          rw [if_pos rfl, span_cons passes]
          exact ((ih (some x)).map fun read _ => x :: read).append (by simp [passes])

theorem greedy_runs1 (test : Char → Bool) (c : Cursor) : Greedy test (c.span1? test) (c.runs1 test) := by
  obtain ⟨before, text⟩ := c
  cases text with
  | nil => exact .missed
  | cons x rest =>
      cases passes : test x with
      | false =>
          have none_read : span1? test ⟨before, x :: rest⟩ = none := by simp [span1?, span, passes]
          rw [none_read, runs1]
          simp only [passes, Bool.false_eq_true, if_false]
          exact .missed
      | true =>
          have one_read : span1? test ⟨before, x :: rest⟩ =
              some (x :: (span test ⟨some x, rest⟩).1, (span test ⟨some x, rest⟩).2) := by
            rw [span1?, span_cons passes]
          rw [one_read, runs1]
          simp only [passes, if_true]
          exact (greedy_runs test ⟨some x, rest⟩).map fun read _ => x :: read

theorem greedy_identifiers (c : Cursor) : Greedy isIdentPart c.identifier? c.identifiers := by
  obtain ⟨before, text⟩ := c
  cases text with
  | nil => exact .missed
  | cons x rest =>
      simp only [identifier?, identifiers]
      cases isIdentStart x with
      | false => exact .missed
      | true => exact greedy_runs1 isIdentPart ⟨before, x :: rest⟩

end Cursor

theorem beq_false_of_class {test : Char → Bool} {x mark : Char} (passes : test x)
    (outside : test mark = false) : (x == mark) = false :=
  beq_false_of_ne fun same => by simp [← same, passes] at outside

theorem isBlank_of_isDigit {x : Char} (digit : isDigit x) : isBlank x = false :=
  Bool.eq_false_iff.mpr fun blank => by simp [isDigit_of_isBlank blank] at digit

theorem foldLetter_of_isBlank {x letter : Char} (blank : isBlank x) (alpha : letter.isAlpha) :
    (foldLetter x == letter) = false := by
  refine beq_false_of_ne fun folds => ?_
  have part : isIdentPart x := by rw [isIdentPart, isIdentStart, folds, alpha]; rfl
  rw [isBlank_of_isIdentPart part] at blank
  contradiction

end QueryHarvest.Text

namespace QueryHarvest.Sql

open Text

/-- The spellings of the order comparisons, those of two characters before those of one. -/
def comparisonSpellings : List (List Char) :=
  [['>', '='], ['<', '='], ['<', '>'], ['!', '='], ['>'], ['<']]

namespace Piece

/-- The ways to read `$` and an index. -/
def placeholders (c : Cursor) : List (Placeholder × Cursor) :=
  (c.one? (· == '$')).toList.flatMap fun c =>
    (c.runs1 isDigit).map fun (digits, after) => (⟨digits, after.rest⟩, after)

/-- The ways to read a comparison. -/
def comparisons (c : Cursor) : List (List Char × Cursor) :=
  comparisonSpellings.filterMap fun spelling =>
    if spelling.isPrefixOf c.rest then some (spelling, ⟨spelling.getLast?, c.rest.drop spelling.length⟩)
    else none

/-- The ways to read a text in quotes. -/
def quotedTexts (c : Cursor) : List (List Char × Cursor) :=
  (c.one? (· == '\x27')).toList.flatMap fun c =>
    (c.runs1 (· != '\x27')).flatMap fun (text, c) =>
      ((c.one? (· == '\x27')).map fun after => (text, after)).toList

/-- The ways to read a point and a name behind it. -/
def secondNames (c : Cursor) : List (List Char × Cursor) :=
  (c.one? (· == '.')).toList.flatMap Cursor.identifiers

/-- The ways to read a name: a second one behind a point is tried before none. -/
def names (c : Cursor) : List (List Char × Cursor) :=
  c.identifiers.flatMap fun (first, c) =>
    (secondNames c).map (fun (second, after) => (first ++ '.' :: second, after)) ++ [(first, c)]

/-- The ways to read a piece, in the order in which they are tried. -/
def ways (notes : Notes) (c : Cursor) : Piece → List (Notes × Cursor)
  | .blanks => (c.runs isBlank).map fun (_, after) => (notes, after)
  | .gap => (c.runs1 isBlank).map fun (_, after) => (notes, after)
  | .symbol s => ((c.one? (· == s)).map fun after => (notes, after)).toList
  | .word letters => ((c.keyword? letters).map fun after => (notes, after)).toList
  | .placeholder => (placeholders c).map fun (found, after) =>
      ({ notes with placeholders := notes.placeholders ++ [found] }, after)
  | .comparison => (comparisons c).map fun (text, after) => ({ notes with text }, after)
  | .like =>
    ([['i', 'l', 'i', 'k', 'e'], ['l', 'i', 'k', 'e']].filterMap (writtenWord? · c)).map
      fun (text, after) => ({ notes with text }, after)
  | .negation =>
    ((c.keyword? ['n', 'o', 't']).toList.flatMap fun c =>
      (c.runs1 isBlank).map fun (_, after) => ({ notes with negated := true }, after)) ++ [(notes, c)]
  | .list => (c.runs1 (· != ')')).map fun (text, after) => ({ notes with text }, after)
  | .number => (c.runs1 isDigit).map fun (text, after) => ({ notes with text }, after)
  | .quoted => (quotedTexts c).map fun (text, after) => ({ notes with text }, after)
  | .name => (names c).map fun (text, after) => ({ notes with text }, after)
  | .wordEnd => if isWord? c.rest.head? then [] else [(notes, c)]
  | .numberEnd =>
    if isWord? c.rest.head? || c.rest.head? == some '.' then [] else [(notes, c)]

/-- Can the character stand behind a piece that is not read as far as it goes? -/
def givesBack : Piece → Char → Bool
  | .blanks, x => isBlank x
  | .gap, x => isBlank x
  | .placeholder, x => isDigit x
  | .comparison, x => x == '=' || x == '>'
  | .negation, x => isBlank x || foldLetter x == 'n'
  | .list, x => x != ')'
  | .number, x => isDigit x
  | .name, x => isIdentPart x || x == '.'
  | _, _ => false

theorem greedy_placeholders (c : Cursor) : Greedy isDigit (readPlaceholder? c) (placeholders c) := by
  rw [readPlaceholder?, placeholders]
  cases c.one? (· == '$') with
  | none => exact .missed
  | some c =>
      have digits := (Cursor.greedy_runs1 isDigit c).map fun digits after => Placeholder.mk digits after.rest
      simpa [Option.map_eq_bind, Function.comp_def] using digits

theorem not_prefix {mark : Char} {text : List Char} (h : ∀ rest, text = mark :: rest → False) :
    ¬ [mark] <+: text :=
  fun ⟨rest, same⟩ => h rest same.symm

theorem greedy_comparisons (c : Cursor) :
    Greedy (fun x => x == '=' || x == '>') (readComparison? c) (comparisons c) := by
  obtain ⟨before, text⟩ := c
  simp only [readComparison?]
  unfold comparison?
  split
  · exact .found (by simp)
  · exact .found (by simp)
  · exact .found (by simp)
  · exact .found (by simp)
  · next rest atLeast =>
    have alone : comparisons ⟨before, '>' :: rest⟩ = [(['>'], ⟨some '>', rest⟩)] := by
      simp [comparisons, comparisonSpellings, not_prefix atLeast]
    exact alone ▸ .found (by simp)
  · next rest atMost differs =>
    have alone : comparisons ⟨before, '<' :: rest⟩ = [(['<'], ⟨some '<', rest⟩)] := by
      simp [comparisons, comparisonSpellings, not_prefix atMost, not_prefix differs]
    exact alone ▸ .found (by simp)
  · next atLeast atMost differsAngle differs above below =>
    have none_read : comparisons ⟨before, text⟩ = [] := by
      refine List.filterMap_eq_nil_iff.mpr fun spelling member => if_neg fun here => ?_
      obtain ⟨rest, rfl⟩ := List.isPrefixOf_iff_prefix.mp here
      simp only [comparisonSpellings, List.mem_cons, List.not_mem_nil, or_false] at member
      rcases member with rfl | rfl | rfl | rfl | rfl | rfl
      · exact atLeast rest rfl
      · exact atMost rest rfl
      · exact differsAngle rest rfl
      · exact differs rest rfl
      · exact above rest rfl
      · exact below rest rfl
    exact none_read ▸ .missed

theorem greedy_likes (c : Cursor) :
    Greedy (fun _ => false)
      ((writtenWord? ['i', 'l', 'i', 'k', 'e'] c).or (writtenWord? ['l', 'i', 'k', 'e'] c))
      ([['i', 'l', 'i', 'k', 'e'], ['l', 'i', 'k', 'e']].filterMap (writtenWord? · c)) := by
  cases ilike : writtenWord? ['i', 'l', 'i', 'k', 'e'] c with
  | none =>
      cases like : writtenWord? ['l', 'i', 'k', 'e'] c with
      | none => simpa [ilike, like] using .missed
      | some way => simpa [ilike, like] using .found (by simp)
  | some way =>
      have other : writtenWord? ['l', 'i', 'k', 'e'] c = none := by
        refine Option.eq_none_iff_forall_ne_some.mpr fun way' like => ?_
        obtain ⟨cut, folds⟩ := of_writtenWord? ilike
        obtain ⟨cut', folds'⟩ := of_writtenWord? like
        have first := congrArg (fun text => (text.map foldLetter).head?) (cut.symm.trans cut')
        simp [folds, folds'] at first
      simpa [ilike, other] using .found (by simp)

theorem greedy_negations (notes : Notes) (c : Cursor) :
    Greedy (fun x => isBlank x || foldLetter x == 'n') (Piece.negation.read? notes c)
      (Piece.negation.ways notes c) := by
  rw [read?, ways, readNot?]
  cases met : c.keyword? ['n', 'o', 't'] with
  | none => exact .found (by simp)
  | some after =>
      have longest := Cursor.greedy_runs1 isBlank after
      simp only [Option.toList_some, List.flatMap_cons, List.flatMap_nil, List.append_nil,
        Option.bind_eq_bind, Option.bind_some]
      generalize after.span1? isBlank = read, after.runs1 isBlank = runs at longest ⊢
      cases longest with
      | missed => exact .found (by simp)
      | @found way others givenBack =>
          have negated := (@Greedy.found _ _ way _ givenBack).map fun _ _ => { notes with negated := true }
          refine (negated.mono fun x blank => by rw [blank]; rfl).append fun other member => ?_
          rw [List.mem_singleton.mp member]
          obtain ⟨word, shown, folds⟩ := Cursor.of_keyword? met
          cases word with
          | nil => contradiction
          | cons x word =>
              have first : foldLetter x = 'n' := congrArg (·.headD 'n') folds
              exact ⟨x, by rw [shown]; rfl, by rw [first]; simp⟩

theorem one?_eq_none {test other : Char → Bool} {c : Cursor} (h : ∃ x ∈ c.rest.head?, test x)
    (apart : ∀ x, test x → other x = false) : c.one? other = none := by
  obtain ⟨before, text⟩ := c
  obtain ⟨x, shown, passes⟩ := h
  cases text with
  | nil => cases shown
  | cons y text =>
      cases shown
      simp [apart x passes]

theorem quotedTexts_eq (c : Cursor) : quotedTexts c = (readQuoted? c).toList := by
  rw [quotedTexts, readQuoted?]
  cases c.one? (· == '\x27') with
  | none => rfl
  | some c =>
      simp only [Option.toList_some, List.flatMap_cons, List.flatMap_nil, List.append_nil]
      change _ = ((Cursor.span1? (· != '\x27') c).bind fun way =>
        (way.2.one? (· == '\x27')).bind fun after => some (way.1, after)).toList
      have longest := Cursor.greedy_runs1 (· != '\x27') c
      generalize c.span1? (· != '\x27') = read, c.runs1 (· != '\x27') = runs at longest ⊢
      cases longest with
      | missed => rfl
      | @found way others givenBack =>
          have nothing : others.flatMap (fun way =>
              ((way.2.one? (· == '\x27')).map fun after => (way.1, after)).toList) = [] := by
            refine List.flatMap_eq_nil_iff.mpr fun other member => ?_
            rw [one?_eq_none (givenBack other member) (by simp)]
            rfl
          rw [List.flatMap_cons, nothing, List.append_nil, Option.bind_some, Option.map_eq_bind]
          rfl

theorem greedy_secondNames (c : Cursor) : Greedy isIdentPart (readSecondName? c) (secondNames c) := by
  rw [readSecondName?, secondNames]
  cases c.one? (· == '.') with
  | none => exact .missed
  | some c =>
      rw [Option.toList_some, List.flatMap_singleton]
      exact c.greedy_identifiers

theorem greedy_names (c : Cursor) :
    Greedy (fun x => isIdentPart x || x == '.') (readName? c) (names c) := by
  have longest := c.greedy_identifiers
  rw [readName?, names]
  generalize c.identifier? = read, c.identifiers = runs at longest ⊢
  cases longest with
  | missed => exact .missed
  | @found way others givenBack =>
      have shorter : ∀ other ∈ others.flatMap fun (first, c) =>
          (secondNames c).map (fun (second, after) => (first ++ '.' :: second, after)) ++ [(first, c)],
          ∃ x ∈ other.2.rest.head?, isIdentPart x || x == '.' := by
        intro other member
        obtain ⟨⟨first, c⟩, among, member⟩ := List.mem_flatMap.mp member
        obtain ⟨x, shown, part⟩ := givenBack _ among
        have no_second : secondNames c = [] := by
          rw [secondNames, one?_eq_none ⟨x, shown, part⟩ fun x part => beq_false_of_class part rfl]
          rfl
        simp only [no_second, List.map_nil, List.nil_append, List.mem_singleton] at member
        exact ⟨x, member ▸ shown, by rw [part, Bool.true_or]⟩
      rw [List.flatMap_cons]
      simp only [Option.bind_eq_bind, Option.bind_some]
      have second := greedy_secondNames way.2
      cases met : readSecondName? way.2 with
      | none =>
          rw [met] at second
          generalize secondNames way.2 = runs' at second ⊢
          cases second with
          | missed => exact Greedy.append (.found (by simp)) shorter
      | some found =>
          rw [met] at second
          have both : Greedy (fun x => isIdentPart x || x == '.') _ _ :=
            (second.map fun second _ => way.1 ++ '.' :: second).mono fun x part => by rw [part, Bool.true_or]
          refine (both.append fun other member => ?_).append shorter
          rw [List.mem_singleton.mp member]
          obtain ⟨c, point, -⟩ := Option.bind_eq_some_iff.mp met
          obtain ⟨x, shown, same⟩ := Cursor.of_one? point
          exact ⟨x, by rw [shown]; rfl, by rw [same, Bool.or_true]⟩

theorem greedy_ways (piece : Piece) (notes : Notes) (c : Cursor) :
    Greedy piece.givesBack (piece.read? notes c) (piece.ways notes c) := by
  cases piece with
  | blanks => exact (Cursor.greedy_runs isBlank c).map fun _ _ => notes
  | gap => exact (Cursor.greedy_runs1 isBlank c).map fun _ _ => notes
  | symbol | word => exact .toList _ _
  | placeholder =>
      exact (greedy_placeholders c).map fun found _ =>
        { notes with placeholders := notes.placeholders ++ [found] }
  | comparison => exact (greedy_comparisons c).map fun text _ => { notes with text }
  | like => exact (greedy_likes c).map fun text _ => { notes with text }
  | negation => exact greedy_negations notes c
  | list => exact (Cursor.greedy_runs1 (· != ')') c).map fun text _ => { notes with text }
  | number => exact (Cursor.greedy_runs1 isDigit c).map fun text _ => { notes with text }
  | quoted =>
      rw [ways, quotedTexts_eq]
      exact (Greedy.toList (fun _ => false) (readQuoted? c)).map fun text _ => { notes with text }
  | name => exact (greedy_names c).map fun text _ => { notes with text }
  | wordEnd | numberEnd =>
      simp only [read?, ways]
      split
      · exact .missed
      · exact .found (by simp)

end Piece

namespace Shape

/-- Read a shape by going back: each way to read a piece is tried until the pieces behind it fit. -/
def search? (notes : Notes) (c : Cursor) : Shape → Option (Notes × Cursor)
  | [] => some (notes, c)
  | piece :: shape => (piece.ways notes c).findSome? fun (notes, after) => search? notes after shape

/-- Can a text that the shape fits begin with the character? -/
def opens : Shape → Char → Bool
  | [], _ => true
  | .blanks :: shape, x => isBlank x || opens shape x
  | .gap :: _, x => isBlank x
  | .symbol s :: _, x => x == s
  | .word letters :: _, x => letters.head?.all (foldLetter x == ·)
  | .placeholder :: _, x => x == '$'
  | .comparison :: _, x => comparisonSpellings.any fun spelling => spelling.head? == some x
  | .like :: _, x => foldLetter x == 'i' || foldLetter x == 'l'
  | .negation :: shape, x => foldLetter x == 'n' || opens shape x
  | .list :: _, x => x != ')'
  | .number :: _, x => isDigit x
  | .quoted :: _, x => x == '\x27'
  | .name :: _, x => isIdentStart x
  | .wordEnd :: shape, x => !isWord x && opens shape x
  | .numberEnd :: shape, x => !isWord x && opens shape x

theorem search?_eq_none {shape : Shape} {x : Char} (h : shape.opens x = false) (notes : Notes)
    (before : Option Char) (rest : List Char) : shape.search? notes ⟨before, x :: rest⟩ = none := by
  induction shape generalizing notes with
  | nil => contradiction
  | cons piece shape ih =>
      rw [search?]
      cases piece with
      | blanks =>
          rw [opens, Bool.or_eq_false_iff] at h
          simp [Piece.ways, Cursor.runs, Cursor.runsFrom, h.1, ih h.2]
      | gap =>
          simp [Piece.ways, Cursor.runs1, show isBlank x = false from h]
      | symbol s =>
          simp [Piece.ways, show (x == s) = false from h]
      | word letters =>
          cases letters with
          | nil => contradiction
          | cons letter letters =>
              have differs : (foldLetter x == letter) = false := by simpa [opens] using h
              simp [Piece.ways, differs]
      | placeholder =>
          simp [Piece.ways, Piece.placeholders, show (x == '$') = false from h]
      | comparison =>
          simp only [opens, comparisonSpellings, List.any_cons, List.any_nil, List.head?_cons,
            Bool.or_eq_false_iff, beq_eq_false_iff_ne, ne_eq, Option.some.injEq] at h
          simp [Piece.ways, Piece.comparisons, comparisonSpellings, h]
      | like =>
          rw [opens, Bool.or_eq_false_iff] at h
          simp [Piece.ways, writtenWord?, h]
      | negation =>
          rw [opens, Bool.or_eq_false_iff] at h
          simp [Piece.ways, h.1, ih h.2]
      | list =>
          simp [Piece.ways, Cursor.runs1, show (x != ')') = false from h]
      | number =>
          simp [Piece.ways, Cursor.runs1, show isDigit x = false from h]
      | quoted =>
          simp [Piece.ways, Piece.quotedTexts, show (x == '\x27') = false from h]
      | name =>
          simp [Piece.ways, Piece.names, Cursor.identifiers, show isIdentStart x = false from h]
      | wordEnd =>
          cases word : isWord x with
          | true => simp [Piece.ways, isWord?, word]
          | false =>
              have later : opens shape x = false := by simpa [opens, word] using h
              simp [Piece.ways, isWord?, word, ih later]
      | numberEnd =>
          cases word : isWord x with
          | true => simp [Piece.ways, isWord?, word]
          | false =>
              have later : opens shape x = false := by simpa [opens, word] using h
              cases point : (x == '.') with
              | true => simp [Piece.ways, eq_of_beq point]
              | false => simp [Piece.ways, isWord?, word, point, ih later]

/-- A piece is steady in front of a shape if going back over it is of no use. -/
def Steady (piece : Piece) (shape : Shape) : Prop :=
  ∀ notes c, search? notes c (piece :: shape) =
    (piece.read? notes c).bind fun (notes, after) => search? notes after shape

theorem search?_stuck {test : Char → Bool} {shape : Shape} (apart : ∀ x, test x → shape.opens x = false)
    (way : Notes × Cursor) (givenBack : ∃ x ∈ way.2.rest.head?, test x) :
    search? way.1 way.2 shape = none := by
  obtain ⟨notes, before, text⟩ := way
  obtain ⟨x, shown, passes⟩ := givenBack
  cases text with
  | nil => cases shown
  | cons y text =>
      cases shown
      exact search?_eq_none (apart x passes) notes before text

/-- A piece gives back a character that the shape behind it cannot begin with. -/
theorem Steady.of_opens {piece : Piece} {shape : Shape}
    (apart : ∀ x, piece.givesBack x → shape.opens x = false) : Steady piece shape :=
  fun notes c => (piece.greedy_ways notes c).findSome? (search?_stuck apart)

/-- Behind the last piece nothing has to fit. -/
theorem Steady.last (piece : Piece) : Steady piece [] := by
  intro notes c
  rw [search?]
  have ways := piece.greedy_ways notes c
  generalize piece.read? notes c = read, piece.ways notes c = ways at ways ⊢
  cases ways <;> rfl

/-- No text begins both with `NOT` and with `NULL`. -/
theorem keyword?_null_eq_none {c after : Cursor} (met : c.keyword? ['n', 'o', 't'] = some after) :
    c.keyword? ['n', 'u', 'l', 'l'] = none := by
  refine Option.eq_none_iff_forall_ne_some.mpr fun other null => ?_
  obtain ⟨read, cut, folds⟩ := Cursor.of_keyword? met
  obtain ⟨read', cut', folds'⟩ := Cursor.of_keyword? null
  have second := congrArg (fun text => (text.map foldLetter)[1]?) (cut.symm.trans cut')
  simp [folds, folds'] at second

/-- A text without `NOT` in front of it that begins with `NOT` does not go on with `NULL`. -/
theorem Steady.negation : Steady .negation [.word ['n', 'u', 'l', 'l'], .wordEnd] := by
  intro notes c
  rw [search?, Piece.ways, Piece.read?, Piece.readNot?]
  cases met : c.keyword? ['n', 'o', 't'] with
  | none =>
      simp only [Option.toList_none, List.flatMap_nil, List.nil_append, List.findSome?_singleton]
      rfl
  | some after =>
      have longest := (Cursor.greedy_runs1 isBlank after).map fun _ _ => { notes with negated := true }
      have unread : search? notes c [.word ['n', 'u', 'l', 'l'], .wordEnd] = none := by
        simp [search?, Piece.ways, keyword?_null_eq_none met]
      rw [List.findSome?_append, Option.toList_some, List.flatMap_singleton, longest.findSome?]
      · rw [List.findSome?_singleton]
        cases spanned : after.span1? isBlank with
        | none => simp [spanned, unread]
        | some => simp [spanned, unread]
      · exact search?_stuck fun x blank => foldLetter_of_isBlank blank rfl

/-- Does the shape begin with something that is not blank? -/
def beginsVisibly : Shape → Bool
  | .symbol s :: _ => !isBlank s
  | .word letters :: _ => letters.head?.any Char.isAlpha
  | .placeholder :: _ => true
  | .comparison :: _ => true
  | .like :: _ => true
  | .negation :: shape => beginsVisibly shape
  | .number :: _ => true
  | .quoted :: _ => true
  | .name :: _ => true
  | _ => false

theorem opens_of_isBlank {x : Char} (blank : isBlank x) {shape : Shape} (visible : shape.beginsVisibly) :
    shape.opens x = false := by
  induction shape with
  | nil => contradiction
  | cons piece shape ih =>
      cases piece with
      | symbol s => exact beq_false_of_class blank (by simpa [beginsVisibly] using visible)
      | word letters =>
          cases letters with
          | nil => contradiction
          | cons letter letters => simpa [opens] using foldLetter_of_isBlank blank visible
      | placeholder => exact beq_false_of_class blank rfl
      | comparison =>
          refine List.any_eq_false.mpr fun spelling member => ?_
          have seen : ∀ spelling ∈ comparisonSpellings, spelling.head?.any isBlank = false := by decide
          rintro same
          simpa [eq_of_beq same, blank] using seen spelling member
      | like =>
          exact Bool.or_eq_false_iff.mpr ⟨foldLetter_of_isBlank blank rfl, foldLetter_of_isBlank blank rfl⟩
      | negation => exact Bool.or_eq_false_iff.mpr ⟨foldLetter_of_isBlank blank rfl, ih visible⟩
      | number => exact isDigit_of_isBlank blank
      | quoted => exact beq_false_of_class blank rfl
      | name =>
          refine Bool.eq_false_iff.mpr fun start => ?_
          rw [isBlank_of_isIdentPart (isIdentPart_of_isIdentStart start)] at blank
          contradiction
      | _ => contradiction

/-- Can it be seen from the shape behind a piece that going back over the piece is of no use? -/
def firm : Piece → Shape → Bool
  | _, [] => true
  | .blanks, shape => beginsVisibly shape
  | .gap, shape => beginsVisibly shape
  | .placeholder, .gap :: _ => true
  | .placeholder, .blanks :: .symbol s :: _ => !isDigit s
  | .comparison, .blanks :: .placeholder :: _ => true
  | .negation, [.word ['n', 'u', 'l', 'l'], .wordEnd] => true
  | .list, .symbol ')' :: _ => true
  | .number, .numberEnd :: _ => true
  | .symbol _, _ => true
  | .word _, _ => true
  | .like, _ => true
  | .quoted, _ => true
  | _, _ => false

theorem steady_of_firm {piece : Piece} {shape : Shape} (h : firm piece shape) : Steady piece shape := by
  unfold firm at h
  split at h
  · exact .last _
  · exact .of_opens fun x blank => opens_of_isBlank blank h
  · exact .of_opens fun x blank => opens_of_isBlank blank h
  · exact .of_opens fun x digit => isBlank_of_isDigit digit
  · exact .of_opens fun x digit => Bool.or_eq_false_iff.mpr
      ⟨isBlank_of_isDigit digit, @beq_false_of_class isDigit _ _ digit (by simpa using h)⟩
  · refine .of_opens fun x mark => ?_
    rcases Bool.or_eq_true_iff.mp mark with same | same <;> rw [eq_of_beq same] <;> rfl
  · exact .negation
  · exact .of_opens fun x inside => by simpa [opens] using bne_iff_ne.mp inside
  · exact .of_opens fun x digit => by simp [opens, isWord_of_isDigit digit]
  · exact .of_opens fun _ back => nomatch back
  · exact .of_opens fun _ back => nomatch back
  · exact .of_opens fun _ back => nomatch back
  · exact .of_opens fun _ back => nomatch back
  · contradiction

/-- Is going back of no use for all pieces of the shape? -/
def allFirm : Shape → Bool
  | [] => true
  | piece :: shape => firm piece shape && allFirm shape

/-- Where going back is of no use, it finds what reading on finds. -/
theorem search?_eq_read? {shape : Shape} (h : shape.allFirm) (notes : Notes) (c : Cursor) :
    shape.search? notes c = shape.read? notes c := by
  induction shape generalizing notes c with
  | nil => rfl
  | cons piece shape ih =>
      obtain ⟨first, others⟩ := Bool.and_eq_true_iff.mp h
      rw [steady_of_firm first, read?]
      exact Option.bind_congr fun _ _ => ih others _ _

end Shape

theorem allFirm_shape : ∀ kind : PredicateKind, kind.shape.allFirm
  | .equality | .membership | .negatedMembership | .arrayEquality | .comparison | .range | .patternMatch
  | .nullCheck | .integerLiteral | .stringLiteral => rfl

/-- The ways to read a column. -/
def columns (qualified : Bool) (c : Cursor) : List ((Option (List Char) × List Char) × Cursor) :=
  if qualified then
    c.identifiers.flatMap fun (first, c) => (c.one? (· == '.')).toList.flatMap fun c =>
      c.identifiers.map fun (second, after) => ((some first, second), after)
  else c.identifiers.map fun (first, after) => ((none, first), after)

/-- Read a predicate of the family by going back: over its shape first, then over its column. -/
def Family.search? (f : Family) (c : Cursor) : Option (Predicate × Cursor) :=
  if c.beginsWord then
    (columns f.qualified c).findSome? fun ((qualifier, column), c) =>
      (f.kind.shape.search? {} c).map fun (notes, after) => (⟨qualifier, column, notes⟩, after)
  else none

theorem greedy_columns (qualified : Bool) (c : Cursor) :
    Greedy isIdentPart (readColumn? qualified c) (columns qualified c) := by
  have longest := c.greedy_identifiers
  rw [readColumn?, columns]
  generalize c.identifier? = read, c.identifiers = runs at longest ⊢
  cases longest with
  | missed => cases qualified <;> exact .missed
  | @found way others givenBack =>
      obtain ⟨first, c⟩ := way
      cases qualified with
      | false => exact (@Greedy.found _ _ (first, c) _ givenBack).map fun first _ => (none, first)
      | true =>
          have nothing : others.flatMap (fun (first, c) => (c.one? (· == '.')).toList.flatMap fun c =>
              c.identifiers.map fun (second, after) => ((some first, second), after)) = [] := by
            refine List.flatMap_eq_nil_iff.mpr fun other member => ?_
            have no_point : other.2.one? (· == '.') = none :=
              Piece.one?_eq_none (givenBack other member) fun x part => beq_false_of_class part rfl
            simp only [no_point]
            rfl
          simp only [if_true, List.flatMap_cons, nothing, List.append_nil, Option.bind_eq_bind,
            Option.bind_some]
          cases c.one? (· == '.') with
          | none => exact .missed
          | some c =>
              rw [Option.toList_some, List.flatMap_singleton, Option.bind_some]
              have second := c.greedy_identifiers.map fun second _ => (some first, second)
              rwa [Option.map_eq_bind] at second

/-- No shape of a predicate begins with what a column could give back. -/
theorem opens_shape (kind : PredicateKind) {x : Char} (part : isIdentPart x) :
    kind.shape.opens x = false := by
  have visible := isBlank_of_isIdentPart part
  cases kind with
  | equality | arrayEquality | integerLiteral | stringLiteral =>
      exact Bool.or_eq_false_iff.mpr ⟨visible, beq_false_of_class part rfl⟩
  | comparison =>
      refine Bool.or_eq_false_iff.mpr ⟨visible, List.any_eq_false.mpr fun spelling member => ?_⟩
      have apart : ∀ spelling ∈ comparisonSpellings, spelling.head?.any isIdentPart = false := by decide
      rintro same
      simpa [eq_of_beq same, part] using apart spelling member
  | membership | negatedMembership | range | patternMatch | nullCheck => exact visible

/-- At every place going back finds the predicate that reading on finds. -/
theorem Family.search?_eq_match? (f : Family) (c : Cursor) : f.search? c = f.pattern.match? c := by
  simp only [search?, pattern, readPredicate?]
  cases c.beginsWord with
  | false => rfl
  | true =>
      simp only [if_true]
      rw [(greedy_columns f.qualified c).findSome?]
      · refine Option.bind_congr fun found _ => ?_
        rw [Shape.search?_eq_read? (allFirm_shape f.kind), Option.map_eq_bind]
        rfl
      · intro way givenBack
        have stuck := Shape.search?_stuck (fun x => opens_shape f.kind) ({}, way.2) givenBack
        simp only [stuck, Option.map_none]

/-- The pattern of a family, searched for by going back. -/
def Family.searching (f : Family) : Pattern Predicate where
  match? := f.search?
  shrinks h := f.pattern.shrinks (f.search?_eq_match? _ ▸ h)

theorem Family.searching_eq_pattern (f : Family) : f.searching = f.pattern := by
  have same : f.search? = f.pattern.match? := funext f.search?_eq_match?
  simp only [searching, same]

theorem allFirm_referenceShape : ∀ keywords ∈ referenceKeywords, (referenceShape keywords).allFirm := by
  decide

/-- Going back finds the references to tables that reading on finds. -/
theorem search?_referenceShape {keywords : List (List Char)} (known : keywords ∈ referenceKeywords)
    (notes : Notes) (c : Cursor) :
    (referenceShape keywords).search? notes c = (referenceShape keywords).read? notes c :=
  Shape.search?_eq_read? (allFirm_referenceShape keywords known) notes c

end QueryHarvest.Sql
