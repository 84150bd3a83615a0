import Mathlib.Algebra.BigOperators.Finprod
import Mathlib.Algebra.Order.BigOperators.Group.Finset

/-!
# Nested mappings and sums over them

A storage mapping is a total function with a default value. Nested mappings are
curried, and an assignment at one pair or triple of keys changes that entry only.

Totals over a finite key type are compared between two mappings that agree except
at one key. The laws are equations of natural numbers without subtraction, so they
compose by linear arithmetic.
-/

namespace Mappings

open Function

universe u v w x
variable {α : Type u} {β : Type v} {γ : Type w} {δ : Type x}

/-- Assign one entry of a mapping of mappings. The other entries stay, in both dimensions. -/
def update₂ [DecidableEq α] [DecidableEq β] (m : α → β → γ) (a : α) (b : β) (value : γ) :
    α → β → γ :=
  update m a (update (m a) b value)

/-- Assign one entry of a triple mapping. The other entries stay, in all three dimensions. -/
def update₃ [DecidableEq α] [DecidableEq β] [DecidableEq γ] (m : α → β → γ → δ)
    (a : α) (b : β) (c : γ) (value : δ) : α → β → γ → δ :=
  update₂ m a b (update (m a b) c value)

/-- Reading a nested mapping after a write: the value that was written, at the two keys it was
written at, and the old value everywhere else. -/
theorem update₂_apply [DecidableEq α] [DecidableEq β] (m : α → β → γ) (a a' : α) (b b' : β)
    (value : γ) : update₂ m a b value a' b' = if a' = a ∧ b' = b then value else m a' b' := by
  by_cases same : a' = a
  · subst same
    by_cases here : b' = b <;> simp [update₂, here]
  · simp [update₂, same]

/-- The same for three keys. -/
theorem update₃_apply [DecidableEq α] [DecidableEq β] [DecidableEq γ] (m : α → β → γ → δ)
    (a a' : α) (b b' : β) (c c' : γ) (value : δ) :
    update₃ m a b c value a' b' c' = if a' = a ∧ b' = b ∧ c' = c then value else m a' b' c' := by
  unfold update₃
  rw [update₂_apply]
  by_cases same : a' = a ∧ b' = b
  · obtain ⟨rfl, rfl⟩ := same
    by_cases here : c' = c <;> simp [here]
  · rw [if_neg same, if_neg (fun whole => same ⟨whole.1, whole.2.1⟩)]

/-- What was written is read again. It is the entry under both keys. -/
@[simp] theorem update₂_self [DecidableEq α] [DecidableEq β] (m : α → β → γ) (a : α) (b : β)
    (value : γ) : update₂ m a b value a b = value := by
  simp [update₂]

/-- What was written is read again, with three keys. -/
@[simp] theorem update₃_self [DecidableEq α] [DecidableEq β] [DecidableEq γ]
    (m : α → β → γ → δ) (a : α) (b : β) (c : γ) (value : δ) :
    update₃ m a b c value a b c = value := by
  simp [update₃]

section Growth

/-- A mapping grows when the entry that is assigned does. The relation is one that every entry has
to itself. -/
theorem update_grows [DecidableEq α] {R : β → β → Prop} (reflexive : ∀ b, R b b) (m : α → β)
    (a : α) (value : β) (grown : R (m a) value) (tested : α) :
    R (m tested) (update m a value tested) := by
  by_cases same : tested = a
  · subst same
    rwa [update_self]
  · rw [update_of_ne same]
    exact reflexive _

/-- A write that puts a value above the old one makes no entry smaller, whatever the order on
values is. -/
theorem update₂_grows [DecidableEq α] [DecidableEq β] {R : γ → γ → Prop} (reflexive : ∀ c, R c c)
    (m : α → β → γ) (a : α) (b : β) (value : γ) (grown : R (m a b) value) (x : α) (y : β) :
    R (m x y) (update₂ m a b value x y) :=
  update_grows (R := fun row result => ∀ y, R (row y) (result y)) (fun row y => reflexive (row y))
    m a _ (update_grows reflexive (m a) b value grown) x y

/-- The same for three keys. -/
theorem update₃_grows [DecidableEq α] [DecidableEq β] [DecidableEq γ] {R : δ → δ → Prop}
    (reflexive : ∀ d, R d d) (m : α → β → γ → δ) (a : α) (b : β) (c : γ) (value : δ)
    (grown : R (m a b c) value) (x : α) (y : β) (z : γ) :
    R (m x y z) (update₃ m a b c value x y z) :=
  update₂_grows (R := fun row result => ∀ z, R (row z) (result z)) (fun row z => reflexive (row z))
    m a b _ (update_grows reflexive (m a b) c value grown) x y z

end Growth

section Totals

/-- The sum of a mapping over all its keys. Keys of machine words are finitely many
but far too many to enumerate, so the sum is the noncomputable one. -/
noncomputable def total (f : α → Nat) : Nat := ∑ᶠ x, f x

/-- Over a finite type the total is the usual sum. The definition also makes sense where only
finitely many entries matter. -/
theorem total_eq_sum [Fintype α] (f : α → Nat) : total f = ∑ x, f x :=
  finsum_eq_sum_of_fintype f

/-- A mapping that holds nothing has nothing in total. -/
theorem total_zero : total (fun _ : α => 0) = 0 :=
  finsum_zero

/-- The total over pairs of keys. Each row is totalled first. -/
noncomputable def total₂ (f : α → β → Nat) : Nat := total fun x => total (f x)

/-- Nothing in two dimensions is nothing in total. -/
theorem total₂_zero : total₂ (fun (_ : α) (_ : β) => 0) = 0 := by
  unfold total₂
  simp only [total_zero]

variable [Finite α] [Finite β]

/-- Adding entry by entry adds the totals. -/
theorem total_add (f g : α → Nat) : total (fun x => f x + g x) = total f + total g :=
  finsum_add_distrib (Set.toFinite _) (Set.toFinite _)

/-- Smaller entries have a smaller total, so a bound on every account bounds all of them. The
entries are compared key by key. -/
theorem total_mono (f g : α → Nat) (below : ∀ x, f x ≤ g x) : total f ≤ total g := by
  have := Fintype.ofFinite α
  rw [total_eq_sum, total_eq_sum]
  exact Finset.sum_le_sum fun x _ => below x

/-- One entry is at most the total. No entry is negative. -/
theorem le_total (f : α → Nat) (a : α) : f a ≤ total f := by
  have := Fintype.ofFinite α
  rw [total_eq_sum]
  exact Finset.single_le_sum (fun _ _ => Nat.zero_le _) (Finset.mem_univ a)

/-- Two mappings that agree except at one key differ in their totals by that key. It is stated
without a subtraction. -/
theorem total_agree (f g : α → Nat) (a : α) (agree : ∀ x, x ≠ a → g x = f x) :
    total g + f a = total f + g a := by
  classical
  have := Fintype.ofFinite α
  have rest : ∑ x ∈ Finset.univ.erase a, g x = ∑ x ∈ Finset.univ.erase a, f x :=
    Finset.sum_congr rfl fun x member => agree x (Finset.ne_of_mem_erase member)
  have left := Finset.add_sum_erase Finset.univ g (Finset.mem_univ a)
  have right := Finset.add_sum_erase Finset.univ f (Finset.mem_univ a)
  rw [total_eq_sum, total_eq_sum]
  omega

/-- Assigning one entry replaces it in the total. It is stated without a subtraction. -/
theorem total_update [DecidableEq α] (f : α → Nat) (a : α) (value : Nat) :
    total (update f a value) + f a = total f + value := by
  have agree := total_agree f (update f a value) a fun x different => update_of_ne different _ _
  rwa [update_self] at agree

/-- A mapping with one entry totals that entry. All other entries are zero. -/
theorem total_single [DecidableEq α] (a : α) (value : Nat) :
    total (fun x => if x = a then value else 0) = value := by
  have single := total_agree (fun _ : α => 0) (fun x => if x = a then value else 0) a
    fun x different => if_neg different
  have zero : total (fun _ : α => 0) = 0 := total_zero
  simp only [if_true] at single
  omega

/-- The same in two dimensions. -/
theorem total₂_mono (f g : α → β → Nat) (below : ∀ x y, f x y ≤ g x y) :
    total₂ f ≤ total₂ g :=
  total_mono _ _ fun x => total_mono _ _ (below x)

/-- No entry exceeds the total. It is at most the total of its row. -/
theorem le_total₂ (f : α → β → Nat) (a : α) (b : β) : f a b ≤ total₂ f :=
  (le_total (f a) b).trans (le_total (fun x => total (f x)) a)

/-- Two pair mappings that agree except at one pair differ by that entry. It is stated without a
subtraction. -/
theorem total₂_agree (f g : α → β → Nat) (a : α) (b : β)
    (agree : ∀ x y, ¬ (x = a ∧ y = b) → g x y = f x y) :
    total₂ g + f a b = total₂ f + g a b := by
  unfold total₂
  have inner := total_agree (f a) (g a) b fun y different => agree a y fun same => different same.2
  have outer := total_agree (fun x => total (f x)) (fun x => total (g x)) a fun x different =>
    congrArg total (funext fun y => agree x y fun same => different same.1)
  omega

/-- The same as `total_add`, in two dimensions. -/
theorem total₂_add (f g : α → β → Nat) :
    total₂ (fun x y => f x y + g x y) = total₂ f + total₂ g := by
  unfold total₂
  simp only [total_add]

/-- A pair mapping below another with no smaller total is the same. If one entry were smaller, the
total would be, too. -/
theorem total₂_eq (f g : α → β → Nat) (below : ∀ x y, f x y ≤ g x y)
    (covered : total₂ g ≤ total₂ f) (a : α) (b : β) : f a b = g a b := by
  classical
  refine Nat.le_antisymm (below a b) ?_
  by_contra smaller
  have raised : total₂ (fun x y => f x y + if x = a ∧ y = b then 1 else 0) ≤ total₂ g := by
    apply total₂_mono
    intro x y
    have here := below x y
    split
    · next same =>
      obtain ⟨rfl, rfl⟩ := same
      omega
    · exact here
  have one := le_total₂ (fun x y => if x = a ∧ y = b then 1 else 0) a b
  rw [total₂_add] at raised
  rw [if_pos ⟨rfl, rfl⟩] at one
  omega

/-- What a list of entries files under each pair of keys. An entry that is filed nowhere counts
for nothing. -/
def share [DecidableEq α] [DecidableEq β] (place : γ → Option (α × β)) (amount : γ → Nat)
    (entries : List γ) (a : α) (b : β) : Nat :=
  (entries.map fun entry => if place entry = some (a, b) then amount entry else 0).sum

/-- Double counting: the shares of all pairs add up to the amounts of all entries,
provided an entry filed nowhere counts for nothing. -/
theorem total₂_share [DecidableEq α] [DecidableEq β] (place : γ → Option (α × β))
    (amount : γ → Nat) (filed : ∀ entry, place entry = none → amount entry = 0)
    (entries : List γ) : total₂ (share place amount entries) = (entries.map amount).sum := by
  induction entries with
  | nil => exact total₂_zero
  | cons entry rest inductionHypothesis =>
    have first : total₂ (fun a b => if place entry = some (a, b) then amount entry else 0) =
        amount entry := by
      cases placed : place entry with
      | none =>
        rw [filed entry placed]
        simpa using total₂_zero
      | some key =>
        obtain ⟨a, b⟩ := key
        have single := total₂_agree (fun (_ : α) (_ : β) => 0)
          (fun x y => if some (a, b) = some (x, y) then amount entry else 0) a b
          fun x y different => if_neg (by simpa [eq_comm] using different)
        simp only [if_true] at single
        have zero : total₂ (fun (_ : α) (_ : β) => 0) = 0 := total₂_zero
        omega
    have split : share place amount (entry :: rest) = fun a b =>
        (if place entry = some (a, b) then amount entry else 0) + share place amount rest a b :=
      rfl
    rw [split, total₂_add, first, inductionHypothesis, List.map_cons, List.sum_cons]

/-- Moving an amount between two entries keeps the total, also when they are one. What leaves one
entry arrives at the other. -/
theorem total_move [DecidableEq α] (f : α → Nat) (source target : α) (amount : Nat)
    (covered : amount ≤ f source) :
    total (update (update f source (f source - amount)) target
        (update f source (f source - amount) target + amount)) = total f := by
  have taken := total_update f source (f source - amount)
  have given := total_update (update f source (f source - amount)) target
    (update f source (f source - amount) target + amount)
  omega

/-- Each element of a list is counted under itself. So the counts of all elements add up to its
length. -/
theorem total_count [DecidableEq α] (l : List α) : total (fun a => l.count a) = l.length := by
  induction l with
  | nil => exact total_zero
  | cons head rest inductionHypothesis =>
    have split : (fun a => (head :: rest).count a) =
        fun a => rest.count a + if a = head then 1 else 0 := by
      funext a
      rw [List.count_cons]
      by_cases same : a = head
      · simp [same]
      · simp [same, Ne.symm same]
    rw [split, total_add, total_single, inductionHypothesis, List.length_cons]

/-- Each pair in a list is counted under its keys. So the counts of all pairs add up to its
length. -/
theorem total₂_count [DecidableEq α] [DecidableEq β] (l : List (α × β)) :
    total₂ (fun a b => l.count (a, b)) = l.length := by
  have counts : (fun a b => l.count (a, b)) = share some (fun _ => 1) l := by
    funext a b
    unfold share
    induction l with
    | nil => rfl
    | cons head rest inductionHypothesis =>
      rw [List.count_cons, inductionHypothesis, List.map_cons, List.sum_cons, Nat.add_comm]
      simp
  rw [counts, total₂_share some (fun _ => 1) (fun _ missing => by cases missing)]
  simp

end Totals

/-- In the lists of several keys put together, a pair occurs as often as its second
part in the list of its key, once for each time the key is visited. -/
theorem count_tagged [DecidableEq α] [DecidableEq β] (keys : List α) (lists : α → List β)
    (a : α) (b : β) :
    (keys.flatMap fun key => (lists key).map fun entry => (key, entry)).count (a, b) =
      keys.count a * (lists a).count b := by
  induction keys with
  | nil => simp
  | cons key rest inductionHypothesis =>
    rw [List.flatMap_cons, List.count_append, inductionHypothesis, List.count_cons]
    by_cases here : key = a
    · subst here
      have tagged : ((lists key).map fun entry => (key, entry)).count (key, b) =
          (lists key).count b :=
        List.count_map_of_injective _ _ (fun _ _ same => (Prod.mk.inj same).2) b
      simp [tagged, Nat.add_mul, Nat.add_comm]
    · have apart : ((lists key).map fun entry => (key, entry)).count (a, b) = 0 := by
        simp [List.count_eq_zero, here]
      simp [apart, here]

end Mappings
