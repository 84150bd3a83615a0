import Mathlib.Data.List.Basic
import OpenBeach.Library.Buffers

/-!
# Loops that stop early

A loop that returns from its body searches a list, and examines no element behind the
one that decides. A result array of unknown size takes two passes: the first counts the
elements that pass a test, the second stores them and stops when the array is full. If
the test never fails, the loops are the pure functions they look like.
-/

namespace Loops

universe u v
variable {α : Type u} {κ : Type v} {ε : Type} {overflow : ε}

section Searches

variable {test : κ → Except ε Bool} {p : κ → Bool} {keys : List κ}

/-- A search for an element that passes. The loop may stop early, which is not seen if no test
fails. -/
theorem anyM_ok (total : ∀ key ∈ keys, test key = .ok (p key)) :
    keys.anyM test = .ok (keys.any p) := by
  induction keys with
  | nil => rfl
  | cons key rest inductionHypothesis =>
    obtain ⟨first, others⟩ := List.forall_mem_cons.mp total
    rw [List.anyM_cons, first, List.any_cons]
    cases p key with
    | true => rfl
    | false => exact inductionHypothesis others

/-- A search for an element that does not pass. The loop may stop early, which is not seen if no
test fails. -/
theorem allM_ok (total : ∀ key ∈ keys, test key = .ok (p key)) :
    keys.allM test = .ok (keys.all p) := by
  induction keys with
  | nil => rfl
  | cons key rest inductionHypothesis =>
    obtain ⟨first, others⟩ := List.forall_mem_cons.mp total
    rw [List.allM_cons, first, List.all_cons]
    cases p key with
    | true => exact inductionHypothesis others
    | false => rfl

/-- A search for an element that does not pass finds none if all of them are tested. -/
theorem allM_eq_true : keys.allM test = .ok true ↔ ∀ key ∈ keys, test key = .ok true := by
  induction keys with
  | nil => exact iff_of_true rfl fun _ impossible => by cases impossible
  | cons key rest inductionHypothesis =>
    rw [List.allM_cons, List.forall_mem_cons]
    cases first : test key with
    | error reason => simp [bind, Except.bind]
    | ok passes =>
      cases passes with
      | true => simpa [bind, Except.bind] using inductionHypothesis
      | false => simp [bind, Except.bind, pure, Except.pure]

/-- A disjunction that evaluates its right side only if it must. If both sides succeed, nobody can
tell whether it did. -/
theorem orM_ok {first second : Except ε Bool} {left right : Bool} (here : first = .ok left)
    (there : second = .ok right) : (first <||> second) = .ok (left || right) := by
  rw [here, there]
  cases left <;> rfl

end Searches

/-- A loop over a list that ends as soon as the cursor of a buffer reaches a limit. -/
def storeUntil (limit : Nat) (body : List α × Nat → κ → Except ε (List α × Nat)) :
    List κ → List α × Nat → Except ε (List α × Nat)
  | [], buffer => .ok buffer
  | key :: rest, buffer =>
    if buffer.2 < limit then do
      let buffer ← body buffer key
      storeUntil limit body rest buffer
    else .ok buffer

/-- The second pass stores every element that passes, also if it stops early: the buffer
has one blank for each of them. -/
theorem storeUntil_ok {body : List α × Nat → κ → Except ε (List α × Nat)} {p : κ → Bool}
    {value : κ → α} {keys : List κ} (done : List α) (blank : α)
    (stores : ∀ key ∈ keys, ∀ buffer, body buffer key =
      if p key = true then Buffers.store overflow buffer (value key) else .ok buffer) :
    storeUntil (done.length + (keys.filter p).length) body keys
        (Buffers.filled done (keys.filter p).length blank) =
      .ok (Buffers.filled (done ++ (keys.filter p).map value) 0 blank) := by
  induction keys generalizing done with
  | nil => simp [storeUntil]
  | cons key rest inductionHypothesis =>
    obtain ⟨first, others⟩ := List.forall_mem_cons.mp stores
    cases passes : p key with
    | true =>
      have room : (Buffers.filled done ((rest.filter p).length + 1) blank).2 <
          done.length + ((rest.filter p).length + 1) :=
        Nat.lt_add_of_pos_right (Nat.succ_pos _)
      have remaining : storeUntil (done.length + ((rest.filter p).length + 1)) body rest
          (Buffers.filled (done ++ [value key]) (rest.filter p).length blank) =
          .ok (Buffers.filled (done ++ value key :: (rest.filter p).map value) 0 blank) := by
        simpa [Nat.add_assoc, Nat.add_comm 1] using
          inductionHypothesis (done ++ [value key]) others
      rw [List.filter_cons_of_pos passes, List.length_cons, storeUntil, if_pos room, first,
        if_pos passes, Buffers.store_succ]
      exact remaining
    | false =>
      rw [List.filter_cons_of_neg (by simp [passes])]
      by_cases room : (Buffers.filled done (rest.filter p).length blank).2 <
          done.length + (rest.filter p).length
      · rw [storeUntil, if_pos room, first, if_neg (by simp [passes])]
        exact inductionHypothesis done others
      · have full : (rest.filter p).length = 0 := by
          simpa [Buffers.filled] using room
        rw [storeUntil, if_neg room, full, List.length_eq_zero_iff.mp full]
        simp

end Loops
