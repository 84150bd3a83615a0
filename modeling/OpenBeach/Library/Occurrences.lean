import Mathlib.Data.List.Infix

/-!
# Occurrences up to a fold

A sequence occurs in another up to a fold of their entries if it is a contiguous part of
it after both are folded. This is a preorder on sequences with the empty one at its
bottom. An occurrence is the same as an offset at which every entry agrees, and as a
split of the base around it.
-/

namespace Occurrences

universe u v
variable {α : Type u} {β : Type v} {fold : α → β} {base search : List α}

/-- The sequence is a contiguous part of the base, up to the fold. -/
def Occurs (fold : α → β) (base search : List α) : Prop := search.map fold <:+: base.map fold

/-- Whether a text occurs can be evaluated, so a search is a function. -/
instance [DecidableEq β] : Decidable (Occurs fold base search) :=
  inferInstanceAs (Decidable (search.map fold <:+: base.map fold))

/-- Every text occurs in itself. -/
theorem Occurs.refl (fold : α → β) (base : List α) : Occurs fold base base :=
  List.infix_rfl

/-- The empty text occurs in every text, at its start. -/
theorem Occurs.nil (fold : α → β) (base : List α) : Occurs fold base [] :=
  List.nil_infix

/-- What occurs in a part occurs in the whole. -/
theorem Occurs.trans {inner : List α} (outer : Occurs fold base search)
    (within : Occurs fold search inner) : Occurs fold base inner :=
  List.IsInfix.trans within outer

/-- A text that occurs is no longer than the text it occurs in. The code tests this before it
subtracts. -/
theorem Occurs.length_le (occurs : Occurs fold base search) : search.length ≤ base.length := by
  simpa using List.IsInfix.length_le occurs

/-- Only the empty sequence occurs in the empty one. -/
theorem Occurs.of_nil (occurs : Occurs fold [] search) : search = [] :=
  List.length_eq_zero_iff.mp (Nat.le_zero.mp occurs.length_le)

/-- An occurrence splits the base. -/
theorem occurs_iff_split : Occurs fold base search ↔ ∃ before found after,
    base = before ++ found ++ after ∧ found.length = search.length ∧
      found.map fold = search.map fold := by
  constructor
  · rintro ⟨left, right, split⟩
    obtain ⟨front, after, rfl, frontSame, rfl⟩ := List.map_eq_append_iff.mp split.symm
    obtain ⟨before, found, rfl, rfl, same⟩ := List.map_eq_append_iff.mp frontSame
    exact ⟨before, found, after, rfl, by simpa using congrArg List.length same, same⟩
  · rintro ⟨before, found, after, rfl, _, same⟩
    rw [Occurs, List.map_append, List.map_append, ← same]
    exact List.infix_append _ _ _

/-- The entries at an offset of the base agree with the sequence. -/
def OccursAt (fold : α → β) (base search : List α) (offset : Nat) : Prop :=
  ∀ j, j < search.length → (base[offset + j]?).map fold = (search[j]?).map fold

/-- Whether a text stands at a position can be evaluated, character by character. -/
instance [DecidableEq β] (offset : Nat) : Decidable (OccursAt fold base search offset) :=
  inferInstanceAs (Decidable (∀ j, j < search.length →
    (base[offset + j]?).map fold = (search[j]?).map fold))

/-- A sequence that is not empty fits where it occurs. -/
theorem OccursAt.fits {offset : Nat} (here : OccursAt fold base search offset)
    (nonempty : search ≠ []) : offset + search.length ≤ base.length := by
  have positive := List.length_pos_iff.mpr nonempty
  have last := here (search.length - 1) (by omega)
  rw [List.getElem?_eq_getElem (l := search) (by omega)] at last
  obtain ⟨entry, found, _⟩ := Option.map_eq_some_iff.mp last
  have inside := (List.getElem?_eq_some_iff.mp found).1
  omega

/-- An offset splits the base, before and behind the entries that agree. -/
theorem OccursAt.split {offset : Nat} (here : OccursAt fold base search offset)
    (fits : offset + search.length ≤ base.length) : ∃ before found after,
    base = before ++ found ++ after ∧ before.length = offset ∧
      found.map fold = search.map fold := by
  refine ⟨base.take offset, (base.drop offset).take search.length,
    base.drop (offset + search.length), ?_, by simp; omega, ?_⟩
  · rw [List.append_assoc, ← List.drop_drop, List.take_append_drop, List.take_append_drop]
  · apply List.ext_getElem?
    intro j
    by_cases inside : j < search.length
    · have agree := here j inside
      simpa [List.getElem?_take, inside] using agree
    · rw [List.getElem?_eq_none (by rw [List.length_map, List.length_take]; omega),
        List.getElem?_eq_none (by rw [List.length_map]; omega)]

/-- A sequence occurs exactly if it occurs at an offset it fits at. -/
theorem occurs_iff_offset : Occurs fold base search ↔
    ∃ offset, offset + search.length ≤ base.length ∧ OccursAt fold base search offset := by
  constructor
  · intro occurs
    obtain ⟨before, found, after, rfl, width, same⟩ := occurs_iff_split.mp occurs
    refine ⟨before.length, by simp only [List.length_append]; omega, ?_⟩
    intro j inside
    rw [List.append_assoc, List.getElem?_append_right (Nat.le_add_right _ _),
      Nat.add_sub_cancel_left, List.getElem?_append_left (by omega), ← List.getElem?_map,
      ← List.getElem?_map, same]
  · rintro ⟨offset, fits, here⟩
    obtain ⟨before, found, after, split, _, same⟩ := here.split fits
    have width : found.length = search.length := by simpa using congrArg List.length same
    exact occurs_iff_split.mpr ⟨before, found, after, split, width, same⟩

end Occurrences
