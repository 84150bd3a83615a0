import OpenBeach.Library.Utf8
import OpenBeach.Search

/-!
# Searching Unicode text

The search compares bytes, and names are text in many languages. The fold moves only
bytes of ASCII letters, which are characters of their own, so folding the bytes of a text
is folding its letters. With the boundaries between characters recognisable in the bytes,
finding the bytes of a text is finding the text.
-/

namespace OpenBeach

open Loops Occurrences Utf8

/-- Bytes outside ASCII stand for themselves. The upper-case letters of ASCII are below them. -/
theorem lower_high {byte : UInt8} (high : 0x80 ≤ byte.toNat) : lower byte = byte := by
  have outside : ¬ (0x41 ≤ byte ∧ byte ≤ 0x5A) := by
    rintro ⟨_, letter⟩
    have bound : byte.toNat ≤ 0x5A := UInt8.le_iff_toNat_le.mp letter
    omega
  exact if_neg outside

/-- The fold leaves every character outside ASCII alone. All bytes of such a character are outside
ASCII. -/
theorem map_lower_high {c : Char} (high : 0x80 ≤ c.val.toNat) :
    (String.utf8EncodeChar c).map lower = String.utf8EncodeChar c := by
  refine (List.map_congr_left ?_).trans (List.map_id _)
  exact fun byte member => lower_high (encodeChar_high high byte member)

/-- A letter and its byte fold alike, within ASCII. The fold of a letter is within ASCII again. -/
theorem lower_ascii {c : Char} (low : c.val.toNat < 0x80) :
    lower (UInt8.ofNat c.val.toNat) = UInt8.ofNat c.toLower.val.toNat ∧
      c.toLower.val.toNat < 0x80 := by
  apply forall_ascii (P := fun c => lower (UInt8.ofNat c.val.toNat) =
    UInt8.ofNat c.toLower.val.toNat ∧ c.toLower.val.toNat < 0x80) ?_ low
  decide +kernel

/-- Characters outside ASCII have no case here. Folding is that of ASCII, on characters as on
bytes. -/
theorem toLower_high {c : Char} (high : 0x80 ≤ c.val.toNat) : c.toLower = c := by
  have outside : ¬ (c.val ≥ 'A'.val ∧ c.val ≤ 'Z'.val) := by
    rintro ⟨_, letter⟩
    have bound : c.val.toNat ≤ 0x5A := UInt32.le_iff_toNat_le.mp letter
    omega
  exact dif_neg outside

/-- Folding the bytes of a character folds the character. Within ASCII a character is a byte, and
outside nothing is folded. -/
theorem map_lower_encodeChar (c : Char) :
    (String.utf8EncodeChar c).map lower = String.utf8EncodeChar c.toLower := by
  by_cases low : c.val.toNat < 0x80
  · obtain ⟨same, still⟩ := lower_ascii low
    rw [encodeChar_low low, encodeChar_low still, List.map_singleton, same]
  · have high := Nat.not_lt.mp low
    rw [toLower_high high, map_lower_high high]

/-- Folding the bytes of a text folds its letters. So a search in bytes can be read as one in
characters. -/
theorem map_lower_encode (text : List Char) :
    (encode text).map lower = encode (text.map Char.toLower) := by
  induction text with
  | nil => rfl
  | cons c text inductionHypothesis =>
    rw [encode_cons, List.map_append, map_lower_encodeChar, inductionHypothesis, List.map_cons,
      encode_cons]

/-- Texts that differ in case only are equally long. Folding keeps the number of bytes of every
character. -/
theorem length_encode {found search : List Char}
    (same : found.map Char.toLower = search.map Char.toLower) :
    (encode found).length = (encode search).length := by
  have folded := congrArg encode same
  rw [← map_lower_encode, ← map_lower_encode] at folded
  simpa using congrArg List.length folded

/-- Bytes that agree with those of a text are a text themselves, between characters. A byte that
continues a character never begins one, so a match cannot start inside. -/
theorem occursAt_text {text search : List Char} {offset : Nat} (nonempty : search ≠ [])
    (here : OccursAt lower (encode text) (encode search) offset) :
    ∃ before found after, text = before ++ found ++ after ∧ (encode before).length = offset ∧
      found.map Char.toLower = search.map Char.toLower := by
  have written : encode search ≠ [] := by
    obtain ⟨first, rest, encoded, _⟩ := encode_first nonempty
    simp [encoded]
  obtain ⟨left, middle, right, split, width, same⟩ := here.split (here.fits written)
  have folded : encode (text.map Char.toLower) =
      left.map lower ++ (encode (search.map Char.toLower) ++ right.map lower) := by
    rw [← map_lower_encode, split, List.map_append, List.map_append, same, map_lower_encode,
      List.append_assoc]
  obtain ⟨front, rear, parts, begins, _⟩ := encode_within (by simpa using nonempty) folded
  obtain ⟨most, after, rfl, inner, _⟩ := List.map_eq_append_iff.mp parts
  obtain ⟨before, found, rfl, rfl, agree⟩ := List.map_eq_append_iff.mp inner
  rw [← map_lower_encode] at begins
  have place : (encode before).length = left.length := by
    simpa using congrArg List.length begins
  exact ⟨before, found, after, rfl, place.trans width, agree⟩

/-- The bytes of a text occur in those of another exactly if the text occurs in it. -/
theorem occurs_text {text search : List Char} :
    Occurs lower (encode text) (encode search) ↔ ∃ before found after,
      text = before ++ found ++ after ∧
        found.map Char.toLower = search.map Char.toLower := by
  constructor
  · intro occurs
    by_cases empty : search = []
    · exact ⟨[], [], text, rfl, by rw [empty]⟩
    · obtain ⟨offset, _, here⟩ := occurs_iff_offset.mp occurs
      obtain ⟨before, found, after, split, _, same⟩ := occursAt_text empty here
      exact ⟨before, found, after, split, same⟩
  · rintro ⟨before, found, after, rfl, same⟩
    have folded : (encode found).map lower = (encode search).map lower := by
      rw [map_lower_encode, same, map_lower_encode]
    rw [encode_append, encode_append]
    exact occurs_iff_split.mpr ⟨_, _, _, rfl, length_encode same, folded⟩

/-- The inner loop ends with a match only where the bytes agree. An index out of bounds would have
ended the call instead. -/
theorem occursAt_of_found {base search : Bytes} {i : Nat}
    (found : foundAt base search i = .ok true) : OccursAt lower base search i := by
  intro j inside
  have agree := allM_eq_true.mp found j (List.mem_range.mpr inside)
  unfold byteAt at agree
  cases inBase : base[i + j]? with
  | none => simp [inBase, bind, Except.bind] at agree
  | some b =>
    cases inSearch : search[j]? with
    | none => simp [inBase, inSearch, bind, Except.bind] at agree
    | some s =>
      rw [toLowercase_eq] at agree
      simpa [inBase, inSearch, bind, Except.bind, pure, Except.pure] using agree

/-- On text the search decides whether the characters of one occur in the other up to the case of
ASCII letters. A match lies between characters, and folding the case leaves the bytes of every
longer character alone. The bytes of a character of more than one byte lie outside ASCII, so they
are compared as they are, and a first byte cannot match in the middle of a character. -/
theorem containsIgnoreCase_unicode (base search : String) :
    (∃ result, containsIgnoreCase (bytes base) (bytes search) = .ok result ∧
      (result = true ↔ ∃ before found after : List Char,
        base.toList = before ++ found ++ after ∧
          found.map Char.toLower = search.toList.map Char.toLower)) ∧
    (∀ i, search ≠ "" → foundAt (bytes base) (bytes search) i = .ok true →
      ∃ before found after : List Char, base.toList = before ++ found ++ after ∧
        (encode before).length = i ∧
        (encode (before ++ found)).length = i + (bytes search).length ∧
        found.map Char.toLower = search.toList.map Char.toLower) ∧
    (∀ c : Char, 1 < (String.utf8EncodeChar c).length →
      (String.utf8EncodeChar c).map toLowercase = String.utf8EncodeChar c) := by
  have baseBytes : bytes base = encode base.toList := toList_toUTF8 base
  have searchBytes : bytes search = encode search.toList := toList_toUTF8 search
  refine ⟨⟨_, containsIgnoreCase_ok _ _, ?_⟩, ?_, ?_⟩
  · rw [decide_eq_true_iff, baseBytes, searchBytes]
    exact occurs_text
  · intro i nonempty found
    have here := occursAt_of_found found
    rw [baseBytes, searchBytes] at here
    have characters : search.toList ≠ [] := fun empty =>
      nonempty (String.toList_eq_nil_iff.mp empty)
    obtain ⟨before, found, after, split, place, same⟩ := occursAt_text characters here
    refine ⟨before, found, after, split, place, ?_, same⟩
    rw [encode_append, List.length_append, place, length_encode same, searchBytes]
  · intro c long
    have high : 0x80 ≤ c.val.toNat := by
      by_contra low
      rw [encodeChar_low (Nat.not_le.mp low)] at long
      simp at long
    rw [toLowercase_eq, map_lower_high high]

/-- A name and a search for its word in capitals: the letters written with several bytes
have to agree in case, the others need not. -/
example : containsIgnoreCase (bytes "Nghệ thuật") (bytes "THUẬT") = .ok false ∧
    containsIgnoreCase (bytes "Nghệ thuật") (bytes "NGHệ") = .ok true := by
  decide +kernel

end OpenBeach
