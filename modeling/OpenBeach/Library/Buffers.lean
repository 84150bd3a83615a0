import Mathlib.Data.List.Basic

/-!
# Buffers of fixed size

A result array is allocated with blank entries and then filled from a cursor that
moves with every write. A write past the end fails. Filling succeeds exactly if the
values fit, and leaves them in order before the blanks that remain.
-/

namespace Buffers

universe u v
variable {α : Type u} {ε : Type v} {overflow : ε}

/-- Write at the cursor and advance it. The buffer is an array of fixed length, and a write beyond
it fails. -/
def store (overflow : ε) (buffer : List α × Nat) (value : α) : Except ε (List α × Nat) :=
  if buffer.2 < buffer.1.length then .ok (buffer.1.set buffer.2 value, buffer.2 + 1)
  else .error overflow

/-- A buffer holding some values, with blanks behind its cursor. It is what a loop of writes has
made of an array of blanks. -/
def filled (done : List α) (blanks : Nat) (blank : α) : List α × Nat :=
  (done ++ List.replicate blanks blank, done.length)

/-- A write takes one blank. The value stands where the blank stood. -/
theorem store_succ (done : List α) (blanks : Nat) (blank value : α) :
    store overflow (filled done (blanks + 1) blank) value =
      .ok (filled (done ++ [value]) blanks blank) := by
  simp [store, filled, List.replicate_succ]

/-- Without a blank a write fails. The cursor is at the end then. -/
theorem store_zero (done : List α) (blank value : α) :
    store overflow (filled done 0 blank) value = .error overflow := by
  simp [store, filled]

/-- Filling a buffer. It succeeds exactly if there are blanks enough, and keeps those that are
left. -/
theorem fill_ok (values done : List α) (blanks : Nat) (blank : α) (result : List α × Nat) :
    values.foldlM (store overflow) (filled done blanks blank) = .ok result ↔
      values.length ≤ blanks ∧
        result = filled (done ++ values) (blanks - values.length) blank := by
  induction values generalizing done blanks with
  | nil => simp [pure, Except.pure, eq_comm]
  | cons value rest inductionHypothesis =>
    rw [List.foldlM_cons]
    cases blanks with
    | zero =>
      rw [store_zero]
      simp [bind, Except.bind]
    | succ blanks =>
      rw [store_succ]
      have remaining := inductionHypothesis (done ++ [value]) blanks
      simp only [bind, Except.bind, remaining, List.length_cons, List.append_assoc,
        List.singleton_append, Nat.add_le_add_iff_right, Nat.add_sub_add_right]

/-- Allocate an array with one slot for each key and fill it in order. The first key that cannot
be read ends it. -/
def collect {κ : Type v} (overflow : ε) (blank : α) (read : κ → Except ε α) (keys : List κ) :
    Except ε (List α) := do
  let (buffer, _) ← keys.foldlM
    (fun buffer key => do
      let value ← read key
      store overflow buffer value)
    (List.replicate keys.length blank, 0)
  pure buffer

/-- The slots suffice: collecting succeeds if every key can be read. The result then has the
values in the order of the keys. -/
theorem collect_ok {κ : Type v} {read : κ → Except ε α} {keys : List κ} (blank : α)
    (value : κ → α) (reads : ∀ key ∈ keys, read key = .ok (value key)) :
    collect overflow blank read keys = .ok (keys.map value) := by
  have loop : ∀ buffer : List α × Nat,
      keys.foldlM (fun buffer key => do store overflow buffer (← read key)) buffer =
        (keys.map value).foldlM (store overflow) buffer := by
    induction keys with
    | nil => exact fun _ => rfl
    | cons key rest inductionHypothesis =>
      intro buffer
      obtain ⟨first, others⟩ := List.forall_mem_cons.mp reads
      rw [List.map_cons, List.foldlM_cons, List.foldlM_cons, first]
      exact congrArg _ (funext (inductionHypothesis others))
  have filling : (keys.map value).foldlM (store overflow) (filled [] keys.length blank) =
      .ok (filled (keys.map value) 0 blank) := by
    rw [fill_ok]
    simp
  unfold collect
  rw [loop]
  change (keys.map value).foldlM (store overflow) (filled [] keys.length blank) >>= _ = _
  rw [filling]
  simp [filled, bind, Except.bind, pure, Except.pure]

/-- A loop of loops is a loop over all inner elements. The state is handed from one inner loop to
the next. -/
theorem foldlM_flatMap {β γ : Type u} {m : Type u → Type v} [Monad m] [LawfulMonad m]
    (inner : α → List γ) (body : β → γ → m β) (l : List α) (start : β) :
    (l.flatMap inner).foldlM body start =
      l.foldlM (fun reached x => (inner x).foldlM body reached) start := by
  induction l generalizing start with
  | nil => rfl
  | cons head rest inductionHypothesis =>
    rw [List.flatMap_cons, List.foldlM_append, List.foldlM_cons]
    exact congrArg _ (funext inductionHypothesis)

end Buffers
