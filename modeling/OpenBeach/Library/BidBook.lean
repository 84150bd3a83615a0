import OpenBeach.Library.Mappings

/-!
# Bid books

An open ascending auction keeps the standing bid and what each account may take
back. A new bid does not repay the one it replaces: it turns it into credit. The
book keeps a claim for each account, its credit and its standing bid together, and
a bid by somebody else never changes that claim.

Bids are listed most recent first, as pairs of bidder and amount.
-/

namespace BidBook

open Mappings

universe u
variable {α : Type u} [DecidableEq α]

/-- The standing bid, if any, and the credit of every account. The two are kept apart, for a
standing bid is not owed to its bidder. -/
@[ext] structure Book (α : Type u) where
  standing : Option (α × Nat)
  credit : α → Nat

/-- The amount to beat. It is zero where nobody has bid. -/
def Book.highest (book : Book α) : Nat := (book.standing.map Prod.snd).getD 0

/-- The part of the standing bid that is the account's. Others have no part in it. -/
def Book.held (book : Book α) (account : α) : Nat :=
  match book.standing with
  | some (leader, amount) => if leader = account then amount else 0
  | none => 0

/-- All that an account has in the book. It is what the account would get if the standing bid were
given back. -/
def Book.claim (book : Book α) (account : α) : Nat := book.credit account + book.held account

/-- Replace the standing bid. Whoever made it keeps the whole claim as credit. So nothing that was
paid before is lost. -/
def Book.place (book : Book α) (bidder : α) (amount : Nat) : Book α :=
  ⟨some (bidder, amount), book.claim⟩

/-- Forget the standing bid. The credits stay as they are. -/
def Book.clear (book : Book α) : Book α := ⟨none, book.credit⟩

/-- A bid that is placed is the highest, whether or not it should have been accepted. What makes a
bid acceptable is left to the rules of an auction. -/
@[simp] theorem Book.highest_place (book : Book α) (bidder : α) (amount : Nat) :
    (book.place bidder amount).highest = amount := rfl

/-- A bid adds to the claim of its bidder and to no other. In particular the overtaken bidder
loses nothing. -/
@[simp] theorem Book.claim_place (book : Book α) (bidder account : α) (amount : Nat) :
    (book.place bidder amount).claim account =
      book.claim account + if bidder = account then amount else 0 := rfl

/-- Forgetting the standing bid takes it from the claim of its bidder. The claims of all others
stay. -/
theorem Book.claim_clear (book : Book α) (account : α) :
    book.clear.claim account + book.held account = book.claim account := by
  simp [Book.claim, Book.clear, Book.held]

/-- What an account paid in a list of bids. Bids that were overtaken count like any other. -/
def paidBy (account : α) (bids : List (α × Nat)) : Nat :=
  (bids.map fun bid => if bid.1 = account then bid.2 else 0).sum

/-- Nobody has paid anything before the first bid. The list of bids is empty then. -/
@[simp] theorem paidBy_nil (account : α) : paidBy account [] = 0 := rfl

/-- What an account paid is counted bid by bid. Bids of others count for nothing. -/
@[simp] theorem paidBy_cons (account : α) (bid : α × Nat) (bids : List (α × Nat)) :
    paidBy account (bid :: bids) = (if bid.1 = account then bid.2 else 0) + paidBy account bids :=
  rfl

/-- The book after accepted bids, each above the amount to beat. The list has the latest bid
first. -/
inductive Bidding (start : Book α) : List (α × Nat) → Book α → Prop where
  | start : Bidding start [] start
  | bid {bids : List (α × Nat)} {book : Book α} (bidding : Bidding start bids book) (bidder : α)
      (amount : Nat) (higher : book.highest < amount) :
      Bidding start ((bidder, amount) :: bids) (book.place bidder amount)

namespace Bidding

variable {start book : Book α} {bids : List (α × Nat)}

/-- The ledger law: a claim grows by exactly what the account paid. The induction is on the bids,
and every bid adds its amount to one claim. -/
theorem claim (bidding : Bidding start bids book) (account : α) :
    book.claim account = start.claim account + paidBy account bids := by
  induction bidding with
  | start => simp
  | bid bidding bidder amount higher inductionHypothesis =>
    simp only [Book.claim_place, inductionHypothesis, paidBy_cons]
    omega

/-- The standing bid is the last accepted one. Without a bid it is what stood at the start. -/
theorem standing (bidding : Bidding start bids book) :
    book.standing = bids.head?.or start.standing := by
  cases bidding with
  | start => rfl
  | bid bidding bidder amount higher => rfl

/-- No accepted bid is above the standing one. Each was the highest when it was made, and the
amount to beat only rises. -/
theorem highest_bound (bidding : Bidding start bids book) :
    ∀ bid ∈ bids, bid.2 ≤ book.highest := by
  induction bidding with
  | start => simp
  | bid bidding bidder amount higher inductionHypothesis =>
    intro bid member
    rw [Book.highest_place]
    rcases List.mem_cons.mp member with rfl | member
    · exact Nat.le_refl _
    · have below := inductionHypothesis bid member
      omega

/-- Accepted bids rise strictly, in the order they were made. Each of them had to beat the one
before. -/
theorem rising (bidding : Bidding start bids book) :
    (bids.reverse.map Prod.snd).Pairwise (· < ·) := by
  rw [List.map_reverse, List.pairwise_reverse, List.pairwise_map]
  induction bidding with
  | start => exact .nil
  | bid bidding bidder amount higher inductionHypothesis =>
    refine .cons ?_ inductionHypothesis
    intro earlier member
    have below := bidding.highest_bound earlier member
    change earlier.2 < amount
    omega

end Bidding

section Totals

variable [Finite α]

/-- The claims of all accounts together are the credits and the standing bid. At most one account
holds the standing bid. -/
theorem Book.total_claim (book : Book α) :
    total book.claim = total book.credit + book.highest := by
  have split : total book.claim = total book.credit + total book.held := total_add _ _
  have held : total book.held = book.highest := by
    cases standing : book.standing with
    | none =>
      have zero : book.held = fun _ => 0 := by
        funext account
        simp [Book.held, standing]
      rw [zero, total_zero]
      simp [Book.highest, standing]
    | some bid =>
      have single : book.held = fun account => if account = bid.1 then bid.2 else 0 := by
        funext account
        simp [Book.held, standing, eq_comm]
      rw [single, total_single]
      simp [Book.highest, standing]
  rw [split, held]

/-- All accounts together paid the amounts of all bids. Every bid is paid by one account. -/
theorem total_paidBy (bids : List (α × Nat)) :
    total (fun account => paidBy account bids) = (bids.map Prod.snd).sum := by
  induction bids with
  | nil => exact total_zero
  | cons bid rest inductionHypothesis =>
    simp only [paidBy_cons, @eq_comm α bid.1]
    rw [total_add, total_single, inductionHypothesis, List.map_cons, List.sum_cons]

end Totals

end BidBook
