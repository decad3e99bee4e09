import SpaceDataModule.JavaScript

/-! `TextDecoder` for UTF-8: a sequence that is not well formed comes out as U+FFFD, and a byte
order mark in front is dropped. -/
namespace JavaScript

/-- A sequence that has begun: how many bytes are still needed, the bits so far and
the bounds of the next byte. -/
structure Sequence where
  needed : Nat
  codePoint : Nat
  lower : Nat
  upper : Nat

/-- The first byte of a sequence. -/
def beginSequence (byte : Nat) : List Char × Option Sequence :=
  if byte < 0x80 then ([.ofNat byte], none)
  else if 0xC2 ≤ byte ∧ byte < 0xE0 then ([], some ⟨1, byte % 32, 0x80, 0xBF⟩)
  else if 0xE0 ≤ byte ∧ byte < 0xF0 then
    ([], some ⟨2, byte % 16, if byte = 0xE0 then 0xA0 else 0x80, if byte = 0xED then 0x9F else 0xBF⟩)
  else if 0xF0 ≤ byte ∧ byte < 0xF5 then
    ([], some ⟨3, byte % 8, if byte = 0xF0 then 0x90 else 0x80, if byte = 0xF4 then 0x8F else 0xBF⟩)
  else (['\uFFFD'], none)

/-- A byte out of bounds ends the sequence as U+FFFD and begins another one. -/
def decodeByte (byte : Nat) : Option Sequence → List Char × Option Sequence
  | none => beginSequence byte
  | some ⟨needed, codePoint, lower, upper⟩ =>
    if byte < lower ∨ upper < byte then
      (beginSequence byte).map ('\uFFFD' :: ·) id
    else if needed = 1 then ([.ofNat (codePoint * 64 + byte % 64)], none)
    else ([], some ⟨needed - 1, codePoint * 64 + byte % 64, 0x80, 0xBF⟩)

def decodeBytes : Option Sequence → List UInt8 → List Char
  | none, [] => []
  | some _, [] => ['\uFFFD']
  | sequence, byte :: bytes =>
    let step := decodeByte byte.toNat sequence
    step.1 ++ decodeBytes step.2 bytes

def decodeText (bytes : List UInt8) : String :=
  stripByteOrderMark (String.ofList (decodeBytes none bytes))

section Decoding
variable (bytes : List UInt8)

theorem decodeBytes_cons (small : byte < 256) (sequence : Option Sequence) :
    decodeBytes sequence (.ofNat byte :: bytes) =
      (decodeByte byte sequence).1 ++ decodeBytes (decodeByte byte sequence).2 bytes := by
  rw [decodeBytes, UInt8.toNat_ofNat_of_lt' small]

theorem decodeBytes_last (small : byte < 256) (inside : ¬(byte < lower ∨ upper < byte)) :
    decodeBytes (some ⟨1, codePoint, lower, upper⟩) (.ofNat byte :: bytes) =
      .ofNat (codePoint * 64 + byte % 64) :: decodeBytes none bytes := by
  rw [decodeBytes_cons bytes small, decodeByte, if_neg inside, if_pos rfl, List.singleton_append]

theorem decodeBytes_next (small : byte < 256) (inside : ¬(byte < lower ∨ upper < byte)) :
    decodeBytes (some ⟨needed + 2, codePoint, lower, upper⟩) (.ofNat byte :: bytes) =
      decodeBytes (some ⟨needed + 1, codePoint * 64 + byte % 64, 0x80, 0xBF⟩) bytes := by
  rw [decodeBytes_cons bytes small, decodeByte, if_neg inside, if_neg (by omega), List.nil_append]
  rfl

theorem decodeBytes_char (c : Char) :
    decodeBytes none (String.utf8EncodeChar c ++ bytes) = c :: decodeBytes none bytes := by
  have valid := c.valid
  have whole : Char.ofNat c.val.toNat = c := Char.ofNat_toNat c
  rw [UInt32.isValidChar, Nat.isValidChar] at valid
  rw [String.utf8EncodeChar]
  generalize c.val.toNat = value at valid whole
  subst whole
  -- One case for each number of bytes.
  split_ifs with one two three
  · rw [List.singleton_append, decodeBytes_cons _ (by omega), decodeByte, beginSequence,
      if_pos (by omega), List.singleton_append]
  · rw [List.cons_append, decodeBytes_cons _ (by omega), decodeByte, beginSequence,
      if_neg (by omega), if_pos (by omega), List.nil_append, List.singleton_append,
      decodeBytes_last _ (by omega) (by omega)]
    congr 2
    omega
  · rw [List.cons_append, decodeBytes_cons _ (by omega), decodeByte, beginSequence,
      if_neg (by omega), if_neg (by omega), if_pos (by omega), List.nil_append,
      List.cons_append, List.singleton_append,
      decodeBytes_next _ (by omega) (by split_ifs <;> omega),
      decodeBytes_last _ (by omega) (by omega)]
    congr 2
    omega
  · rw [List.cons_append, decodeBytes_cons _ (by omega), decodeByte, beginSequence,
      if_neg (by omega), if_neg (by omega), if_neg (by omega), if_pos (by omega), List.nil_append,
      List.cons_append, List.cons_append, List.singleton_append,
      decodeBytes_next _ (by omega) (by split_ifs <;> omega),
      decodeBytes_next _ (by omega) (by omega), decodeBytes_last _ (by omega) (by omega)]
    congr 2
    omega

end Decoding

theorem toUTF8_data (text : String) :
    text.toUTF8.data.toList = text.toList.flatMap String.utf8EncodeChar := by
  rw [← text.ofList_toList, String.toUTF8_eq_toByteArray, String.toByteArray_ofList,
    String.toList_ofList, List.utf8Encode]
  simp

theorem decodeText_utf8 (text : String) :
    decodeText text.toUTF8.data.toList = stripByteOrderMark text := by
  have decoded (chars : List Char) :
      decodeBytes none (chars.flatMap String.utf8EncodeChar) = chars := by
    induction chars with
    | nil => rfl
    | cons c rest ih => rw [List.flatMap_cons, decodeBytes_char, ih]
  rw [decodeText, toUTF8_data, decoded, String.ofList_toList]

theorem stripByteOrderMark_eq_self :
    stripByteOrderMark text = text ↔ text.toList.head? ≠ some '\uFEFF' := by
  unfold stripByteOrderMark
  split
  case h_1 rest marked =>
    rw [marked, ← String.toList_inj, String.toList_ofList, marked]
    simp
  case h_2 unmarked =>
    refine ⟨fun _ marked => ?_, fun _ => rfl⟩
    obtain ⟨rest, first⟩ := List.head?_eq_some_iff.mp marked
    exact unmarked rest first

end JavaScript
