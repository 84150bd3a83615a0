import Mathlib.Algebra.Group.Nat.Defs
import Mathlib.Data.Finite.Defs
import Mathlib.Data.Fintype.EquivFin
import Mathlib.Logic.Function.Basic
import Mathlib.Order.Defs.LinearOrder

/-!
# Words, reverts and checked arithmetic

Addresses and `uint256` values are fixed-width words; a Solidity `string` is its
byte sequence. A call that does not complete reverts with a reason and leaves no
trace, so functions return their new state or a revert.
-/

namespace OpenBeach

/-- An unsigned machine word: a number below the bound of its width. The bound is part of the
word, so no operation can leave the width unnoticed. -/
@[ext] structure Word (bits : Nat) where
  toNat : Nat
  bound : toNat < 2 ^ bits
deriving DecidableEq

namespace Word

variable {bits : Nat}

/-- A literal stands for its residue, as a literal that is converted to a fixed width does. The
modelled code only has literals that fit. -/
instance (n : Nat) : OfNat (Word bits) n :=
  ⟨⟨n % 2 ^ bits, Nat.mod_lt _ (Nat.two_pow_pos bits)⟩⟩

/-- Words are compared as unsigned numbers. -/
instance : LT (Word bits) := ⟨fun left right => left.toNat < right.toNat⟩

/-- Words are compared as unsigned numbers. -/
instance : LE (Word bits) := ⟨fun left right => left.toNat ≤ right.toNat⟩

/-- A comparison of words is one of numbers, so it can be evaluated. -/
instance (left right : Word bits) : Decidable (left < right) :=
  inferInstanceAs (Decidable (left.toNat < right.toNat))

/-- The same for the other comparison, which the sources use as often. -/
instance (left right : Word bits) : Decidable (left ≤ right) :=
  inferInstanceAs (Decidable (left.toNat ≤ right.toNat))

/-- There are finitely many words of a width, so that sums over all accounts are finite. -/
instance : Finite (Word bits) :=
  Finite.of_injective (fun word => (⟨word.toNat, word.bound⟩ : Fin (2 ^ bits)))
    fun _ _ same => Word.ext (Fin.mk.inj same)

/-- What the comparison says, in terms of the numbers that arithmetic procedures understand. -/
theorem lt_def {left right : Word bits} : left < right ↔ left.toNat < right.toNat := Iff.rfl

/-- What the comparison says, in terms of the numbers that arithmetic procedures understand. -/
theorem le_def {left right : Word bits} : left ≤ right ↔ left.toNat ≤ right.toNat := Iff.rfl

/-- The word that storage holds before anything is written there is the number zero. -/
@[simp] theorem toNat_zero : (0 : Word bits).toNat = 0 := Nat.zero_mod _

/-- A word is tested against zero in the sources, and arguments about it are about numbers. -/
theorem toNat_eq_zero {word : Word bits} : word.toNat = 0 ↔ word = 0 := by
  rw [Word.ext_iff, toNat_zero]

/-- Any two words can be compared, so searches for a smallest price are searches in a linear
order. -/
instance : LinearOrder (Word bits) where
  le_refl word := Nat.le_refl word.toNat
  le_trans _ _ _ first second := Nat.le_trans first second
  le_antisymm _ _ first second := Word.ext (Nat.le_antisymm first second)
  le_total left right := Nat.le_total left.toNat right.toNat
  lt_iff_le_not_ge left right := Nat.lt_iff_le_and_not_ge
  toDecidableLE := inferInstance
  toDecidableLT := inferInstance
  toDecidableEq := inferInstance

/-- The largest word. The code uses it for "no price found yet". -/
def max : Word bits := ⟨2 ^ bits - 1, Nat.sub_lt (Nat.two_pow_pos bits) Nat.one_pos⟩

/-- No word is above the sentinel `type(uint256).max`. -/
theorem le_max (word : Word bits) : word ≤ max :=
  Nat.le_sub_one_of_lt word.bound

end Word

/-- Accounts and contracts are told apart by 160 bits alone. -/
abbrev Address := Word 160

/-- The numbers of the contracts: identifiers of tokens, prices, times and supplies. -/
abbrev UInt256 := Word 256

/-- A `string` of the contracts is a sequence of bytes; nothing checks that it is UTF-8. Lengths
and positions are therefore those of bytes, not of characters. -/
abbrev Bytes := List UInt8

/-- The bytes of a literal. The literals of the source are texts, and so are the arguments of the
samples. -/
def bytes (text : String) : Bytes := text.toUTF8.data.toList

/-- Why a call reverted. Besides the source's own messages these are the compiler's
panics, the errors of the inherited contracts, and calls the chain refuses. -/
inductive Revert where
  | reason : String → Revert
  | panic : Nat → Revert
  | ownableUnauthorizedAccount : Address → Revert
  | ownableInvalidOwner : Address → Revert
  | reentrancyGuardReentrantCall : Revert
  | erc721NonexistentToken : UInt256 → Revert
  | erc721IncorrectOwner : Address → UInt256 → Address → Revert
  | erc721InsufficientApproval : Address → UInt256 → Revert
  | erc721InvalidApprover : Address → Revert
  | erc721InvalidOperator : Address → Revert
  | erc721InvalidReceiver : Address → Revert
  | erc721InvalidSender : Address → Revert
  | nonPayable : Revert
  | insufficientBalance : Revert
  | etherRefused : Revert
  | noContract : Revert
  | addressInUse : Revert
  | notAnOutsideAccount : Revert
  | timestampDecreases : Revert
deriving DecidableEq

/-- Continue only when the condition holds. Otherwise the call fails with the given reason, and
the whole call is undone by whoever runs it. -/
def ensure (condition : Prop) [Decidable condition] (otherwise : Revert) : Except Revert Unit :=
  if condition then .ok () else .error otherwise

/-- `require(condition, message)`. The text is part of the reason, so two checks that fail
differently are told apart. -/
def require (condition : Prop) [Decidable condition] (message : String) : Except Revert Unit :=
  ensure condition (.reason message)

/-- Checked addition; overflow panics with code 0x11. The compiler inserts the check; there is no
unchecked arithmetic in the modelled functions. -/
def checkedAdd (left right : UInt256) : Except Revert UInt256 :=
  if fits : left.toNat + right.toNat < 2 ^ 256 then .ok ⟨left.toNat + right.toNat, fits⟩
  else .error (.panic 0x11)

/-- The sender and the attached value of a call. Nothing else of a call's context is read, apart
from the time of the block. -/
structure Msg where
  sender : Address
  value : UInt256
deriving DecidableEq

section Laws

universe u v
variable {α β : Type u} {ε : Type v}

/-- A check passes exactly if its condition holds. The call goes on unchanged. -/
@[simp] theorem ensure_ok {condition : Prop} [Decidable condition] {otherwise : Revert}
    {result : Unit} : ensure condition otherwise = .ok result ↔ condition := by
  unfold ensure
  split <;> simp_all

/-- A check with a text passes exactly if its condition holds. Which text it has plays no part, as
long as it passes. -/
@[simp] theorem require_ok {condition : Prop} [Decidable condition] {message : String}
    {result : Unit} : require condition message = .ok result ↔ condition :=
  ensure_ok

/-- A sequence completes exactly when its first part does and then the rest. A failure anywhere
makes the whole sequence fail, so success tells of every part. -/
@[simp] theorem bind_ok {first : Except ε α} {next : α → Except ε β} {result : β} :
    (first >>= next) = .ok result ↔ ∃ value, first = .ok value ∧ next value = .ok result := by
  cases first with
  | error reason => simp [bind, Except.bind]
  | ok value => simp [bind, Except.bind]

/-- A value that is returned is the result. With `bind_ok` this takes successful code apart, one
statement at a time. -/
@[simp] theorem pure_ok {value result : α} :
    (pure value : Except ε α) = .ok result ↔ result = value := by
  simp [pure, Except.pure, eq_comm]

/-- What is made of a result needs the result first. -/
@[simp] theorem map_ok {f : α → β} {first : Except ε α} {result : β} :
    (f <$> first) = .ok result ↔ ∃ value, first = .ok value ∧ result = f value := by
  cases first with
  | error reason => simp [Functor.map, Except.map]
  | ok value => simp [Functor.map, Except.map, eq_comm]

/-- A checked sum is the exact sum. So an addition that succeeds can be reasoned about with
numbers. -/
@[simp] theorem checkedAdd_ok {left right sum : UInt256} :
    checkedAdd left right = .ok sum ↔ sum.toNat = left.toNat + right.toNat := by
  unfold checkedAdd
  split
  · next fits => rw [Except.ok.injEq, Word.ext_iff, eq_comm]
  · next overflow =>
    have bound := sum.bound
    constructor
    · intro impossible
      cases impossible
    · omega

end Laws

end OpenBeach
