import Mathlib
import QueryHarvest.Text.Utf8

/-! # Bytes that are text

Bytes are decoded exactly when they are the UTF-8 encoding of a text, and then that text comes back.
-/

namespace QueryHarvest.Text.Utf8

/-- The sequences of bytes that encode a character, with its code point. -/
inductive Encodes : Nat → List UInt8 → Prop where
  | one {a : UInt8} (lead : a.toNat < 0x80) : Encodes a.toNat [a]
  | two {a b : UInt8} (lead : 0xC2 ≤ a.toNat ∧ a.toNat < 0xE0) (second : secondAllowed a b) :
      Encodes (a.toNat % 0x20 * 0x40 + low6 b) [a, b]
  | three {a b c : UInt8} (lead : 0xE0 ≤ a.toNat ∧ a.toNat < 0xF0) (second : secondAllowed a b)
      (third : isContinuation c) :
      Encodes ((a.toNat % 0x10 * 0x40 + low6 b) * 0x40 + low6 c) [a, b, c]
  | four {a b c d : UInt8} (lead : 0xF0 ≤ a.toNat ∧ a.toNat < 0xF5) (second : secondAllowed a b)
      (third : isContinuation c) (fourth : isContinuation d) :
      Encodes (((a.toNat % 0x08 * 0x40 + low6 b) * 0x40 + low6 c) * 0x40 + low6 d) [a, b, c, d]

theorem beq_eq_decide (a b : UInt8) : (a == b) = decide (a.toNat = b.toNat) := by
  rw [Bool.eq_iff_iff, beq_iff_eq, decide_eq_true_iff, UInt8.toNat_inj]

@[simp] theorem isContinuation_iff {b : UInt8} : isContinuation b ↔ 0x80 ≤ b.toNat ∧ b.toNat < 0xC0 := by
  simp [isContinuation]

theorem secondAllowed_iff {lead second : UInt8} : secondAllowed lead second ↔
    (0x80 ≤ second.toNat ∧ second.toNat < 0xC0) ∧
      (lead.toNat = 0xE0 → 0xA0 ≤ second.toNat) ∧ (lead.toNat = 0xED → second.toNat < 0xA0) ∧
      (lead.toNat = 0xF0 → 0x90 ≤ second.toNat) ∧ (lead.toNat = 0xF4 → second.toNat < 0x90) := by
  rw [secondAllowed, Bool.and_eq_true, isContinuation_iff]
  refine and_congr_right fun _ => ?_
  simp only [beq_eq_decide, UInt8.reduceToNat, decide_eq_true_eq]
  split_ifs <;> simp <;> omega

section

variable {lead : UInt8} {rest : List UInt8}

/-- A character that is read is encoded by the bytes it takes up. -/
theorem encodes_of_pieceAt {c : Char} {size : Nat} (h : pieceAt lead rest = .char c size) :
    ∃ code more tail, rest = more ++ tail ∧ Encodes code (lead :: more) ∧ c = Char.ofNat code ∧
      size = more.length + 1 := by
  simp only [pieceAt, Bool.or_eq_true, decide_eq_true_eq, Bool.not_eq_true'] at h
  split at h
  · next ascii =>
    cases h
    exact ⟨_, [], rest, rfl, .one ascii, rfl, rfl⟩
  split at h
  · cases h
  split at h
  · cases h
  next second rest =>
  split at h
  · cases h
  next allowed =>
  rw [Bool.not_eq_false] at allowed
  split at h
  · cases h
    exact ⟨_, [second], rest, rfl, .two (by omega) allowed, rfl, rfl⟩
  split at h
  · cases h
  next third rest =>
  split at h
  · cases h
  next continues =>
  rw [Bool.not_eq_false] at continues
  split at h
  · cases h
    exact ⟨_, [second, third], rest, rfl, .three (by omega) allowed continues, rfl, rfl⟩
  split at h
  · cases h
  next fourth rest =>
  split at h
  · cases h
  next ends =>
  rw [Bool.not_eq_false] at ends
  cases h
  exact ⟨_, [second, third, fourth], rest, rfl, .four (by omega) allowed continues ends, rfl, rfl⟩

/-- A sequence is read as its character, whatever stands behind it. -/
theorem Encodes.pieceAt {code : Nat} {more : List UInt8} (h : Encodes code (lead :: more))
    (tail : List UInt8) :
    pieceAt lead (more ++ tail) = .char (Char.ofNat code) (more.length + 1) := by
  cases h with
  | one h => simp [Utf8.pieceAt, h]
  | two h second =>
      simp [Utf8.pieceAt, second, show ¬ lead.toNat < 0x80 by omega, show ¬ lead.toNat < 0xC2 by omega,
        show ¬ 0xF5 ≤ lead.toNat by omega, h.2]
  | three h second third =>
      simp [Utf8.pieceAt, second, third, show ¬ lead.toNat < 0x80 by omega,
        show ¬ lead.toNat < 0xC2 by omega, show ¬ 0xF5 ≤ lead.toNat by omega,
        show ¬ lead.toNat < 0xE0 by omega, h.2]
  | four h second third fourth =>
      simp [Utf8.pieceAt, second, third, fourth, show ¬ lead.toNat < 0x80 by omega,
        show ¬ lead.toNat < 0xC2 by omega, show ¬ 0xF5 ≤ lead.toNat by omega,
        show ¬ lead.toNat < 0xE0 by omega, show ¬ lead.toNat < 0xF0 by omega]

end

theorem Encodes.isValidChar {code : Nat} {bytes : List UInt8} (h : Encodes code bytes) :
    code.isValidChar := by
  cases h with
  | one => exact .inl (by omega)
  | two =>
      simp only [low6]
      exact .inl (by omega)
  | three lead second third =>
      have allowed := secondAllowed_iff.mp second
      simp only [low6, Nat.isValidChar]
      omega
  | four lead second third fourth =>
      have allowed := secondAllowed_iff.mp second
      simp only [low6, Nat.isValidChar]
      omega

theorem toNat_val_ofNat {n : Nat} (h : n.isValidChar) : (Char.ofNat n).val.toNat = n := by
  rw [Char.ofNat, dif_pos h]
  rfl

theorem ofNat_eq_of_toNat {n : Nat} {b : UInt8} (h : n = b.toNat) : UInt8.ofNat n = b := by
  rw [h, UInt8.ofNat_toNat]

/-- The sequences are those of the standard encoding. -/
theorem Encodes.utf8EncodeChar {code : Nat} {bytes : List UInt8} (h : Encodes code bytes) :
    String.utf8EncodeChar (Char.ofNat code) = bytes := by
  have value := toNat_val_ofNat h.isValidChar
  cases h with
  | one lead =>
      simp only [String.utf8EncodeChar, value]
      rw [if_pos (by omega), UInt8.ofNat_toNat]
  | two lead second =>
      have allowed := secondAllowed_iff.mp second
      simp only [low6] at value
      simp only [String.utf8EncodeChar, low6, value]
      rw [if_neg (by omega), if_pos (by omega)]
      congr <;> exact ofNat_eq_of_toNat (by omega)
  | three lead second third =>
      have allowed := secondAllowed_iff.mp second
      have continues := isContinuation_iff.mp third
      simp only [low6] at value
      simp only [String.utf8EncodeChar, low6, value]
      rw [if_neg (by omega), if_neg (by omega), if_pos (by omega)]
      congr <;> exact ofNat_eq_of_toNat (by omega)
  | four lead second third fourth =>
      have allowed := secondAllowed_iff.mp second
      have continues := isContinuation_iff.mp third
      have ends := isContinuation_iff.mp fourth
      simp only [low6] at value
      simp only [String.utf8EncodeChar, low6, value]
      rw [if_neg (by omega), if_neg (by omega), if_neg (by omega)]
      congr <;> exact ofNat_eq_of_toNat (by omega)

/-- The standard encoding of a character is one of the sequences. -/
theorem encodes_utf8EncodeChar (c : Char) : Encodes c.toNat (String.utf8EncodeChar c) := by
  have valid : c.val.toNat.isValidChar := c.valid
  have byte {n : Nat} (small : n < 256) : (UInt8.ofNat n).toNat = n := by
    rw [UInt8.toNat_ofNat', Nat.mod_eq_of_lt small]
  simp only [String.utf8EncodeChar, Char.toNat]
  generalize c.val.toNat = n at valid
  have bound : n < 0x110000 := by rcases valid with h | ⟨_, h⟩ <;> omega
  have lead₂ := @byte (n / 64 % 32 + 192) (by omega)
  have lead₃ := @byte (n / 4096 % 16 + 224) (by omega)
  have lead₄ := @byte (n / 262144 % 8 + 240) (by omega)
  have third₄ := @byte (n / 4096 % 64 + 128) (by omega)
  have second := @byte (n / 64 % 64 + 128) (by omega)
  have last := @byte (n % 64 + 128) (by omega)
  split_ifs with one two three
  · have encodes := Encodes.one (a := UInt8.ofNat n) (by rw [byte] <;> omega)
    rwa [byte (by omega)] at encodes
  · have encodes := Encodes.two (a := UInt8.ofNat (n / 64 % 32 + 192)) (b := UInt8.ofNat (n % 64 + 128))
      (by omega) (secondAllowed_iff.mpr (by omega))
    convert encodes using 1
    simp only [low6]
    omega
  · have encodes := Encodes.three (a := UInt8.ofNat (n / 4096 % 16 + 224))
      (b := UInt8.ofNat (n / 64 % 64 + 128)) (c := UInt8.ofNat (n % 64 + 128))
      (by omega) (secondAllowed_iff.mpr (by unfold Nat.isValidChar at valid; omega))
      (isContinuation_iff.mpr (by omega))
    convert encodes using 1
    simp only [low6]
    omega
  · have encodes := Encodes.four (a := UInt8.ofNat (n / 262144 % 8 + 240))
      (b := UInt8.ofNat (n / 4096 % 64 + 128)) (c := UInt8.ofNat (n / 64 % 64 + 128))
      (d := UInt8.ofNat (n % 64 + 128)) (by omega) (secondAllowed_iff.mpr (by omega))
      (isContinuation_iff.mpr (by omega)) (isContinuation_iff.mpr (by omega))
    convert encodes using 1
    simp only [low6]
    omega

/-- A character stands in front of some bytes exactly where its encoding does. -/
theorem pieceAt_eq_char_iff {lead : UInt8} {rest : List UInt8} {c : Char} {size : Nat} :
    pieceAt lead rest = .char c size ↔ ∃ more tail, rest = more ++ tail ∧
      String.utf8EncodeChar c = lead :: more ∧ size = more.length + 1 := by
  constructor
  · intro read
    obtain ⟨code, more, tail, cut, encodes, rfl, length⟩ := encodes_of_pieceAt read
    exact ⟨more, tail, cut, encodes.utf8EncodeChar, length⟩
  · rintro ⟨more, tail, rfl, encoded, rfl⟩
    have encodes : Encodes c.toNat (lead :: more) := encoded ▸ encodes_utf8EncodeChar c
    rw [encodes.pieceAt tail, Char.ofNat_toNat]

/-- How many bytes a piece takes up. -/
def Piece.size : Piece → Nat
  | .char _ size => size
  | .fault _ size => size

theorem piecesOnto_eq (before : List Piece) (skip : Nat) (bytes : List UInt8) :
    piecesOnto before skip bytes = (pieces (bytes.drop skip)).reverse ++ before := by
  unfold pieces
  rw [List.reverse_reverse]
  induction bytes generalizing skip before with
  | nil => simp [piecesOnto]
  | cons b rest ih =>
      cases skip with
      | succ skip => rw [piecesOnto, ih, List.drop_succ_cons]
      | zero =>
          rw [List.drop_zero, piecesOnto, piecesOnto, ih, ih [_], List.append_assoc]
          rfl

theorem pieces_cons (b : UInt8) (rest : List UInt8) :
    pieces (b :: rest) = pieceAt b rest :: pieces (rest.drop ((pieceAt b rest).size - 1)) := by
  rw [pieces, piecesOnto]
  cases pieceAt b rest with
  | char | fault =>
      rw [piecesOnto_eq]
      simp [Piece.size]

/-- The piece is a character. -/
def Piece.Is (c : Char) (piece : Piece) : Prop :=
  ∃ size, piece = .char c size

theorem forall₂_pieces_iff {bytes : List UInt8} {chars : List Char} :
    List.Forall₂ Piece.Is chars (pieces bytes) ↔ bytes = chars.flatMap String.utf8EncodeChar := by
  constructor
  · intro read
    induction chars generalizing bytes with
    | nil =>
        cases bytes with
        | nil => rfl
        | cons b rest =>
            rw [pieces_cons] at read
            cases read
    | cons c chars ih =>
        cases bytes with
        | nil => cases read
        | cons b rest =>
            rw [pieces_cons, List.forall₂_cons] at read
            obtain ⟨⟨size, first⟩, others⟩ := read
            obtain ⟨more, tail, rfl, encoded, rfl⟩ := pieceAt_eq_char_iff.mp first
            simp only [first, Piece.size, Nat.add_sub_cancel, List.drop_left] at others
            rw [List.flatMap_cons, encoded, ← ih others, List.cons_append]
  · rintro rfl
    induction chars with
    | nil => exact .nil
    | cons c chars ih =>
        obtain ⟨lead, more, encoded⟩ := List.exists_cons_of_ne_nil (@String.utf8EncodeChar_ne_nil c)
        have first : pieceAt lead (more ++ chars.flatMap String.utf8EncodeChar) =
            .char c (more.length + 1) := pieceAt_eq_char_iff.mpr ⟨_, _, rfl, encoded, rfl⟩
        rw [List.flatMap_cons, encoded, List.cons_append, pieces_cons, first]
        refine .cons ⟨_, rfl⟩ ?_
        rwa [Piece.size, Nat.add_sub_cancel, List.drop_left]

theorem collectFrom_eq_ok_iff {bytes : List UInt8} {position : Nat} {before found : List Char}
    {pieces : List Piece} : collectFrom bytes position before pieces = .ok found ↔
      ∃ chars, List.Forall₂ Piece.Is chars pieces ∧ found = before.reverse ++ chars := by
  induction pieces generalizing position before with
  | nil => simp [collectFrom, eq_comm]
  | cons piece pieces ih =>
      cases piece with
      | char c size =>
          rw [collectFrom, ih]
          constructor
          · rintro ⟨chars, read, rfl⟩
            exact ⟨c :: chars, .cons ⟨size, rfl⟩ read, by simp⟩
          · rintro ⟨chars, read, rfl⟩
            obtain ⟨d, others, ⟨_, same⟩, later, rfl⟩ := List.forall₂_cons_right_iff.mp read
            cases same
            exact ⟨others, later, by simp⟩
      | fault reason size =>
          refine iff_of_false (by simp [collectFrom]) ?_
          rintro ⟨chars, read, -⟩
          obtain ⟨d, chars, ⟨_, same⟩, -, -⟩ := List.forall₂_cons_right_iff.mp read
          cases same

theorem toList_loop_eq (bytes : ByteArray) (i : Nat) (before : List UInt8) :
    ByteArray.toList.loop bytes i before = before.reverse ++ bytes.data.toList.drop i := by
  fun_induction ByteArray.toList.loop bytes i before with
  | case1 i before inside ih =>
      have here : bytes.data.toList.drop i = bytes.get! i :: bytes.data.toList.drop (i + 1) := by
        simpa [ByteArray.get!, inside] using
          List.drop_eq_getElem_cons (l := bytes.data.toList) (i := i) inside
      rw [ih, here, List.reverse_cons, List.append_assoc, List.singleton_append]
  | case2 i before outside =>
      rw [List.drop_eq_nil_of_le (Nat.le_of_not_lt outside), List.append_nil]

@[simp] theorem toByteArray_toList (bytes : ByteArray) : bytes.toList.toByteArray = bytes := by
  rw [ByteArray.toList, toList_loop_eq]
  exact ByteArray.ext (by simp)

/-- Bytes are decoded to a text exactly when they are its encoding. -/
@[simp] theorem decode_eq_ok_iff {bytes : List UInt8} {text : String} :
    decode bytes = .ok text ↔ bytes.toByteArray = text.toByteArray := by
  have encoding : text.toByteArray = (text.toList.flatMap String.utf8EncodeChar).toByteArray := by
    rw [← String.utf8Encode_toList]
    rfl
  have collected : decode bytes = .ok text ↔
      collectFrom bytes 0 [] (pieces bytes) = .ok text.toList := by
    rw [decode]
    cases collectFrom bytes 0 [] (pieces bytes) with
    | ok found =>
        constructor <;> rintro ⟨⟩
        · rw [String.toList_ofList]
        · exact congrArg Except.ok String.ofList_toList
    | error fault => exact ⟨nofun, nofun⟩
  rw [encoding, List.toByteArray_inj, ← forall₂_pieces_iff, collected, collectFrom_eq_ok_iff]
  simp

end QueryHarvest.Text.Utf8
