import Mathlib.Data.List.Basic

/-!
# UTF-8 is self-synchronising

The first byte of an encoded character differs from every other byte of it, so a position
in an encoded text is a boundary between characters exactly if a first byte stands there.
An encoded text that is found inside another therefore is a text found inside a text.
-/

namespace Utf8

/-- The bytes of a text. -/
def encode (text : List Char) : List UInt8 := text.flatMap String.utf8EncodeChar

/-- The empty text has no bytes. -/
@[simp] theorem encode_nil : encode [] = [] := rfl

/-- A text is encoded character by character. -/
@[simp] theorem encode_cons (c : Char) (text : List Char) :
    encode (c :: text) = String.utf8EncodeChar c ++ encode text :=
  List.flatMap_cons

/-- Texts can be encoded in parts. A cut between characters is a cut between their bytes. -/
@[simp] theorem encode_append (left right : List Char) :
    encode (left ++ right) = encode left ++ encode right :=
  List.flatMap_append

/-- The bytes of a string are those of its characters. -/
theorem toList_toUTF8 (text : String) : text.toUTF8.data.toList = encode text.toList := by
  rw [String.toUTF8_eq_toByteArray, ← String.utf8Encode_toList, List.utf8Encode,
    List.toList_data_toByteArray]
  rfl

/-- A text that is not empty begins with a first byte. -/
theorem encode_first {text : List Char} (nonempty : text ≠ []) :
    ∃ first rest, encode text = first :: rest ∧ first.IsUTF8FirstByte := by
  obtain ⟨c, text, rfl⟩ := List.exists_cons_of_ne_nil nonempty
  have lead := @UInt8.isUTF8FirstByte_getElem_zero_utf8EncodeChar c
  obtain ⟨first, rest, encoded⟩ := List.exists_cons_of_ne_nil (@String.utf8EncodeChar_ne_nil c)
  refine ⟨first, rest ++ encode text, ?_, ?_⟩
  · rw [encode_cons, encoded, List.cons_append]
  · simpa [encoded] using lead

/-- Within a character only the first byte is one. -/
theorem eq_nil_of_first {c : Char} {left right : List UInt8} {first : UInt8}
    (split : String.utf8EncodeChar c = left ++ first :: right) (lead : first.IsUTF8FirstByte) :
    left = [] := by
  have inside : left.length < (String.utf8EncodeChar c).length := by
    rw [split, List.length_append, List.length_cons]
    omega
  have here : (String.utf8EncodeChar c)[left.length] = first := by
    simp [split]
  have start : (String.utf8EncodeChar c)[left.length].IsUTF8FirstByte ↔ left.length = 0 :=
    UInt8.isUTF8FirstByte_getElem_utf8EncodeChar
  rw [here] at start
  exact List.length_eq_zero_iff.mp (start.mp lead)

/-- A first byte stands at a boundary between characters. -/
theorem encode_boundary {text : List Char} {left right : List UInt8} {first : UInt8}
    (split : encode text = left ++ first :: right) (lead : first.IsUTF8FirstByte) :
    ∃ before after, text = before ++ after ∧ encode before = left ∧
      encode after = first :: right := by
  induction text generalizing left with
  | nil => simp at split
  | cons c text inductionHypothesis =>
    rw [encode_cons] at split
    rcases List.append_eq_append_iff.mp split with
      ⟨further, rfl, later⟩ | ⟨rest, character, remaining⟩
    · obtain ⟨before, after, rfl, same, follows⟩ := inductionHypothesis later
      exact ⟨c :: before, after, rfl, by rw [encode_cons, same], follows⟩
    · cases rest with
      | nil =>
        rw [List.append_nil] at character
        rw [List.nil_append] at remaining
        exact ⟨[c], text, rfl, by simp [character], remaining.symm⟩
      | cons byte rest =>
        obtain ⟨rfl, rfl⟩ := List.cons.inj remaining
        obtain rfl := eq_nil_of_first character lead
        exact ⟨[], c :: text, rfl, rfl, by rw [encode_cons, character]; rfl⟩

/-- A text whose bytes begin another is a prefix of it. -/
theorem encode_begins {text search : List Char} {right : List UInt8}
    (split : encode text = encode search ++ right) :
    ∃ after, text = search ++ after ∧ encode after = right := by
  have bytes : search.utf8Encode ++ right.toByteArray = text.utf8Encode := by
    rw [List.utf8Encode, List.utf8Encode, ← List.toByteArray_append]
    exact congrArg List.toByteArray split.symm
  obtain ⟨after, rfl⟩ := List.isPrefix_of_utf8Encode_append_eq_utf8Encode _ bytes
  exact ⟨after, rfl, by simpa using split⟩

/-- A text that is not empty and whose bytes occur in those of another occurs in it, from
the character at the same place on. -/
theorem encode_within {text search : List Char} {left right : List UInt8}
    (nonempty : search ≠ []) (split : encode text = left ++ (encode search ++ right)) :
    ∃ before after, text = before ++ search ++ after ∧ encode before = left ∧
      encode after = right := by
  obtain ⟨first, rest, encoded, lead⟩ := encode_first nonempty
  have boundary : encode text = left ++ first :: (rest ++ right) := by
    rw [split, encoded, List.cons_append]
  obtain ⟨before, remaining, rfl, same, follows⟩ := encode_boundary boundary lead
  have begins : encode remaining = encode search ++ right := by
    rw [follows, encoded, List.cons_append]
  obtain ⟨after, rfl, last⟩ := encode_begins begins
  exact ⟨before, after, (List.append_assoc _ _ _).symm, same, last⟩

/-- All bytes of a character outside ASCII are outside ASCII. -/
theorem encodeChar_high {c : Char} (high : 0x80 ≤ c.val.toNat) :
    ∀ byte ∈ String.utf8EncodeChar c, 0x80 ≤ byte.toNat := by
  intro byte member
  unfold String.utf8EncodeChar at member
  simp only at member
  rw [if_neg (by omega)] at member
  split at member
  · simp only [List.mem_cons, List.not_mem_nil, or_false] at member
    rcases member with rfl | rfl <;> (rw [UInt8.toNat_ofNat']; omega)
  · split at member
    · simp only [List.mem_cons, List.not_mem_nil, or_false] at member
      rcases member with rfl | rfl | rfl <;> (rw [UInt8.toNat_ofNat']; omega)
    · simp only [List.mem_cons, List.not_mem_nil, or_false] at member
      rcases member with rfl | rfl | rfl | rfl <;> (rw [UInt8.toNat_ofNat']; omega)

/-- What holds of all codes of ASCII holds of its characters. -/
theorem forall_ascii {P : Char → Prop} (each : ∀ code : Fin 0x80, P (Char.ofNat code.val))
    {c : Char} (low : c.val.toNat < 0x80) : P c := by
  have same : Char.ofNat c.val.toNat = c := Char.ofNat_toNat c
  simpa only [same] using each ⟨c.val.toNat, low⟩

/-- An ASCII character is its own byte. -/
theorem encodeChar_low {c : Char} (low : c.val.toNat < 0x80) :
    String.utf8EncodeChar c = [UInt8.ofNat c.val.toNat] := by
  unfold String.utf8EncodeChar
  exact if_pos (by omega)

end Utf8
