import OpenBeach.Collections
import OpenBeach.Custody
import OpenBeach.Library.Sequences

/-!
# The ether of every account

Ether moves when a marketplace call carries it, when a sale pays the seller, and when other
accounts pay each other. What an account has is therefore what it began with, what was sent
to it and what its own listings were sold for, less what it sent and what its own calls
carried.
-/

namespace OpenBeach

open Function Mappings NestedCalls Sequences

/-- The sale an event makes: the token, and what was paid. Whoever bought it is in the event too,
and does not matter here. -/
def saleOf (event : ChainEvent) : Option ((Address × UInt256) × UInt256) :=
  match trade event with
  | some (key, .sale _ payment) => some (key, payment)
  | _ => none

/-- The balances an event leaves. A sale makes two payments, from the buyer to the marketplace and
on to the seller. -/
def balanceAfter (this : Address) (receipt : ChainReceipt) : Address → Nat :=
  match receipt.event with
  | .executed (.marketplace msg (.createMarketSale collection tokenId)) =>
    movedBalance (movedBalance receipt.before.balance msg.sender this msg.value.toNat) this
      (receipt.before.item collection tokenId).seller msg.value.toNat
  | .executed (.marketplace msg _) =>
    movedBalance receipt.before.balance msg.sender this msg.value.toNat
  | .executed (.moveEther source target amount) =>
    movedBalance receipt.before.balance source target amount
  | _ => receipt.before.balance

/-- What the account's own calls and payments carry away. A call that is not payable carries
nothing. -/
def sent (account : Address) : ChainEvent → Nat
  | .executed (.marketplace msg _) => if account = msg.sender then msg.value.toNat else 0
  | .executed (.moveEther source _ amount) => if account = source then amount else 0
  | _ => 0

/-- What other accounts pay to the account outside the marketplace. Such payments are moves of
their own in a run. -/
def received (account : Address) : ChainEvent → Nat
  | .executed (.moveEther _ target amount) => if account = target then amount else 0
  | _ => 0

/-- Who listed the token last. It is read off the history, since the record is overwritten by the
next listing. -/
def lister (collection : Address) (tokenId : UInt256) (history : List ChainReceipt) :
    Option Address :=
  latest (fun receipt => match tradeOn collection tokenId receipt.event with
    | some (.listing seller _ _) => some seller
    | _ => none) history

/-- What the account's listings were sold for. A sale counts for whoever had listed the token at
that time. -/
def proceeds (account : Address) : List ChainReceipt → Nat
  | [] => 0
  | receipt :: older =>
    (match saleOf receipt.event with
    | some (key, payment) => if lister key.1 key.2 older = some account then payment.toNat else 0
    | none => 0) + proceeds account older

section Steps

variable {this : Address} {w after : World} {event : ChainEvent}

/-- A payment takes from its source what it adds to its target. Both happen at once if source and
target are one account. -/
theorem movedBalance_account (balance : Address → Nat) (source target : Address) (amount : Nat)
    (covered : amount ≤ balance source) (account : Address) :
    movedBalance balance source target amount account + (if account = source then amount else 0) =
      balance account + if account = target then amount else 0 := by
  by_cases paying : account = source
  · subst paying
    by_cases paid : account = target
    · subst paid
      simp [movedBalance]
      omega
    · simp [movedBalance, paid]
      omega
  · by_cases paid : account = target
    · subst paid
      simp [movedBalance, paying]
    · simp [movedBalance, paying, paid]

/-- Nothing moves without an amount. So calls without value need no case of their own. -/
theorem movedBalance_zero (balance : Address → Nat) (source target : Address) :
    movedBalance balance source target 0 = balance := by
  funext account
  have same := movedBalance_account balance source target 0 (Nat.zero_le _) account
  simpa using same

/-- A marketplace call without a payment carries nothing. It is put in the form of one that
carries zero. -/
theorem balance_of_free {msg : Msg} (free : msg.value = 0) (same : after.balance = w.balance) :
    msg.value.toNat ≤ w.balance msg.sender ∧
      after.balance = movedBalance w.balance msg.sender this msg.value.toNat := by
  have nothing : msg.value.toNat = 0 := by rw [free]; rfl
  rw [nothing, movedBalance_zero]
  exact ⟨Nat.zero_le _, same⟩

/-- Every call of the marketplace is covered by its sender's balance, and moves what it
carries; a sale passes it on to the seller. -/
theorem marketplace_balance {msg : Msg} {call : NFTMarketplace.Call}
    (completed : NFTMarketplace.call this msg call w = .ok after) :
    msg.value.toNat ≤ w.balance msg.sender ∧
      after.balance = balanceAfter this ⟨w, .executed (.marketplace msg call)⟩ := by
  cases call with
  | addCategory category =>
    obtain ⟨free, completed⟩ := NFTMarketplace.nonPayable_ok.mp completed
    obtain ⟨_, _, rfl⟩ := NFTMarketplace.onStorage_ok.mp completed
    exact balance_of_free free rfl
  | createCollection name symbol baseURI category newCollection =>
    obtain ⟨free, completed⟩ := NFTMarketplace.nonPayable_ok.mp completed
    obtain ⟨_, _, _, _, rfl⟩ := NFTMarketplace.createCollection_ok.mp completed
    exact balance_of_free free rfl
  | createMarketItem collection tokenId price =>
    obtain ⟨funded, completed⟩ := NFTMarketplace.payable_ok.mp completed
    obtain ⟨_, _, _, _, _, _, _, _, _, rfl⟩ := NFTMarketplace.createMarketItem_ok.mp completed
    exact ⟨funded, rfl⟩
  | createMarketSale collection tokenId =>
    obtain ⟨funded, completed⟩ := NFTMarketplace.payable_ok.mp completed
    obtain ⟨_, _, _, _, _, _, _, _, _, _, _, _, rfl⟩ :=
      NFTMarketplace.createMarketSale_ok.mp completed
    exact ⟨funded, rfl⟩
  | createAuction collection tokenId startingPrice duration =>
    obtain ⟨free, completed⟩ := NFTMarketplace.nonPayable_ok.mp completed
    obtain ⟨_, _, _, _, _, rfl⟩ := NFTMarketplace.createAuction_ok.mp completed
    exact balance_of_free free rfl
  | placeBid collection tokenId =>
    obtain ⟨funded, completed⟩ := NFTMarketplace.payable_ok.mp completed
    obtain ⟨_, _, _, _, _, _, rfl⟩ := NFTMarketplace.placeBid_ok.mp completed
    exact ⟨funded, rfl⟩
  | makeOffer collection tokenId =>
    obtain ⟨funded, completed⟩ := NFTMarketplace.payable_ok.mp completed
    obtain ⟨_, _, _, _, rfl⟩ := NFTMarketplace.makeOffer_ok.mp completed
    exact ⟨funded, rfl⟩
  | updateCollectionTotalSupply collection =>
    obtain ⟨free, completed⟩ := NFTMarketplace.nonPayable_ok.mp completed
    obtain ⟨_, _, _, _, rfl⟩ := NFTMarketplace.updateCollectionTotalSupply_ok.mp completed
    exact balance_of_free free rfl
  | transferOwnership newOwner =>
    obtain ⟨free, completed⟩ := NFTMarketplace.nonPayable_ok.mp completed
    obtain ⟨_, _, rfl⟩ := NFTMarketplace.onStorage_ok.mp completed
    exact balance_of_free free rfl
  | renounceOwnership =>
    obtain ⟨free, completed⟩ := NFTMarketplace.nonPayable_ok.mp completed
    obtain ⟨_, _, rfl⟩ := NFTMarketplace.onStorage_ok.mp completed
    exact balance_of_free free rfl

/-- Calls of collections move no ether. They cannot, since none of their functions is payable. -/
theorem CollectionsOnly.balance (only : CollectionsOnly w after) : after.balance = w.balance := by
  rw [only]

/-- The balances after every effective event, whose payer had what it paid. There are three kinds
of events that move ether: payable calls, sales and payments. -/
theorem effective_balance (effective : Effective (chain this) event w after) :
    (∀ account, sent account event ≤ w.balance account) ∧
      after.balance = balanceAfter this ⟨w, event⟩ := by
  have covered : ∀ source amount account, amount ≤ w.balance source →
      (if account = source then amount else 0) ≤ w.balance account := by
    intro source amount account funded
    split
    · next same => exact same ▸ funded
    · exact Nat.zero_le _
  cases event with
  | resumed pending => exact ⟨fun _ => Nat.zero_le _, (resume_only effective).balance⟩
  | executed action =>
    obtain ⟨continuation, ran⟩ := effective
    cases action with
    | marketplace msg call =>
      obtain ⟨_, completed, _⟩ := execute_marketplace_ok.mp ran
      obtain ⟨funded, left⟩ := marketplace_balance completed
      exact ⟨fun account => covered msg.sender msg.value.toNat account funded, left⟩
    | collection sender collection call =>
      simp only [chain, execute, bind_ok, ensure_ok, exists_const] at ran
      exact ⟨fun _ => Nat.zero_le _, (collection_only ran.2).balance⟩
    | outsideCall =>
      obtain ⟨rfl, _⟩ : w = after ∧ some Pending.outsideCall = continuation := by
        simpa [chain, execute] using ran
      exact ⟨fun _ => Nat.zero_le _, rfl⟩
    | moveEther source target amount =>
      simp only [chain, execute, bind_ok, ensure_ok, exists_const, completed_ok, moveEther_ok] at ran
      obtain ⟨_, ⟨funded, rfl⟩, _⟩ := ran
      exact ⟨fun account => covered source amount account funded, rfl⟩
    | setAccount address account =>
      obtain ⟨rfl, _⟩ : { w with accounts := update w.accounts address account } = after ∧
          none = continuation := by
        simpa [chain, execute] using ran
      exact ⟨fun _ => Nat.zero_le _, rfl⟩
    | nextBlock timestamp =>
      simp only [chain, execute, bind_ok, ensure_ok, exists_const, pure_ok, Prod.mk.injEq] at ran
      obtain ⟨_, rfl, _⟩ := ran
      exact ⟨fun _ => Nat.zero_le _, rfl⟩

/-- What a sale pays to the account. The seller is read off the record, as the code does. -/
def paidTo (account : Address) (receipt : ChainReceipt) : Nat :=
  match saleOf receipt.event with
  | some (key, payment) =>
    if (receipt.before.item key.1 key.2).seller = account then payment.toNat else 0
  | none => 0

/-- The step lemma for the balance of an account other than the marketplace. What was sent is put
on the left, so that nothing is subtracted. -/
theorem effective_account (effective : Effective (chain this) event w after) {account : Address}
    (other : account ≠ this) :
    after.balance account + sent account event =
      w.balance account + paidTo account ⟨w, event⟩ + received account event := by
  obtain ⟨covered, left⟩ := effective_balance effective
  rw [left]
  cases event with
  | resumed pending => rfl
  | executed action =>
    cases action with
    | collection | outsideCall | setAccount | nextBlock => rfl
    | moveEther source target amount =>
      have funded : amount ≤ w.balance source := by simpa [sent] using covered source
      exact movedBalance_account w.balance source target amount funded account
    | marketplace msg call =>
      obtain ⟨_, ran⟩ := effective
      obtain ⟨outside, _, _⟩ := execute_marketplace_ok.mp ran
      have sender_other := (outside_iff.mp outside).2.1
      have funded : msg.value.toNat ≤ w.balance msg.sender := by simpa [sent] using covered msg.sender
      have carried := movedBalance_account w.balance msg.sender this msg.value.toNat funded account
      rw [if_neg other, Nat.add_zero] at carried
      cases call with
      | createMarketSale collection tokenId =>
        have passed := movedBalance_account
          (movedBalance w.balance msg.sender this msg.value.toNat) this
          (w.item collection tokenId).seller msg.value.toNat
          (by rw [movedBalance_target _ _ sender_other]; exact Nat.le_add_left _ _) account
        rw [if_neg other, Nat.add_zero] at passed
        simp only [balanceAfter, sent, received, paidTo, saleOf, trade, passed,
          eq_comm (a := account)] at carried ⊢
        omega
      | addCategory | createCollection | createMarketItem | createAuction | placeBid | makeOffer
      | updateCollectionTotalSupply | transferOwnership | renounceOwnership => exact carried

end Steps

section Runs

variable (deployment : Deployment) (moves : List (Move Action))

/-- The seller of an item is who listed it last. The record and the history agree about it, step
by step. -/
theorem LotStep.lister {this collection : Address} {tokenId : UInt256} {receipt : ChainReceipt}
    {history : List ChainReceipt} {lot after : Lot}
    (step : LotStep this collection tokenId receipt.before.timestamp lot
      (tradeOn collection tokenId receipt.event) after)
    (known : lot.item.seller = (lister collection tokenId history).getD 0) :
    after.item.seller = (lister collection tokenId (receipt :: history)).getD 0 := by
  rw [OpenBeach.lister, latest_cons]
  generalize tradeOn collection tokenId receipt.event = kind at step
  cases step with
  | listing => rfl
  | idle | sale | auction | bid | offer => exact known

/-- What a sale pays goes to who listed the token last. So the record can be left out of the
account. -/
theorem paidTo_eq {this : Address} {receipt : ChainReceipt} {history : List ChainReceipt}
    {account : Address}
    (steps : ∀ collection tokenId, ∃ after, LotStep this collection tokenId receipt.before.timestamp
      (receipt.before.lot collection tokenId) (tradeOn collection tokenId receipt.event) after)
    (sellers : ∀ collection tokenId, (receipt.before.lot collection tokenId).Sound this ∧
      (receipt.before.item collection tokenId).seller =
        (lister collection tokenId history).getD 0) :
    proceeds account (receipt :: history) = paidTo account receipt + proceeds account history := by
  rw [proceeds, paidTo]
  cases sold : saleOf receipt.event with
  | none => rfl
  | some sale =>
    obtain ⟨⟨collection, tokenId⟩, payment⟩ := sale
    have traded : ∃ buyer, tradeOn collection tokenId receipt.event = some (.sale buyer payment) := by
      unfold saleOf at sold
      split at sold
      · next seen =>
        cases sold
        exact ⟨_, tradeOn_eq_some.mpr seen⟩
      · cases sold
    obtain ⟨buyer, traded⟩ := traded
    obtain ⟨sound, known⟩ := sellers collection tokenId
    obtain ⟨after, step⟩ := steps collection tokenId
    rw [traded] at step
    have onSale : (receipt.before.item collection tokenId).isOnSale = true := by
      cases step with
      | sale _ _ _ onSale => exact onSale
    have listed : lister collection tokenId history =
        some (receipt.before.item collection tokenId).seller := by
      have nonzero : (receipt.before.item collection tokenId).seller ≠ 0 := sound.attributed onSale
      cases seen : lister collection tokenId history with
      | none => exact absurd (by rw [known, seen]; rfl) nonzero
      | some seller => rw [known, seen]; rfl
    simp [listed]

/-- The exact ledger of every account: what it has is what it began with, what its listings were
sold for and what others sent it, less what its own calls carried and what it sent. A sale is
credited to the account that listed the token last, which is found in the history. Bids and offers
appear as what was paid, and nowhere as income. -/
theorem account_ledger (account : Address) (other : account ≠ deployment.address) :
    (deployment.world moves).balance account +
        ((deployment.history moves).map fun receipt => sent account receipt.event).sum =
      deployment.balance account + proceeds account (deployment.history moves) +
        ((deployment.history moves).map fun receipt => received account receipt.event).sum := by
  have all := (deployment.trace moves).history_invariant
    (fun history w => Registry deployment.address w ∧
      (∀ collection tokenId, (w.lot collection tokenId).Sound deployment.address ∧
        (w.item collection tokenId).seller = (lister collection tokenId history).getD 0) ∧
      w.balance account + (history.map fun receipt => sent account receipt.event).sum =
        deployment.balance account + proceeds account history +
          (history.map fun receipt => received account receipt.event).sum)
    (by
      refine ⟨deployment.genesis_registry, ?_, rfl⟩
      intro collection tokenId
      have blank := deployment.genesis_lot collection tokenId
      exact ⟨blank ▸ Lot.unset_sound deployment.address,
        congrArg (fun lot => lot.item.seller) blank⟩)
    (by
      rintro event history w after effective ⟨registry, sellers, ledger⟩
      have change := deployment.change effective
      have step := fun collection tokenId =>
        change.lot deployment.address_ne_zero registry collection tokenId
      refine ⟨change.registry registry, ?_, ?_⟩
      · intro collection tokenId
        obtain ⟨sound, known⟩ := sellers collection tokenId
        exact ⟨(step collection tokenId).sound sound,
          @LotStep.lister deployment.address collection tokenId ⟨w, event⟩ _ _ _
            (step collection tokenId) known⟩
      · have law := effective_account effective other
        have paid := @paidTo_eq deployment.address ⟨w, event⟩ history account
          (fun collection tokenId => ⟨_, step collection tokenId⟩) sellers
        simp only [List.map_cons, List.sum_cons]
        omega)
  exact all.2.2

/-- Account 11 lists a token, 12 buys it for 1000 wei and sells it to 13 for 700. -/
def soldTwice : List (Move Action) :=
  Deployment.sampleListing ++
    [.act (.marketplace ⟨12, 1000⟩ (.createMarketSale 100 1)),
      .act (.collection 12 100 (.approve 1 1)),
      .act (.marketplace ⟨12, NFTMarketplace.initialListingFee⟩ (.createMarketItem 100 1 700)),
      .act (.marketplace ⟨13, 700⟩ (.createMarketSale 100 1)),
      .act (.moveEther 13 12 5)]

/-- Account 12 bought a token, sold it again and had other income: what it has and what it paid
out add up to what it had and what it got. -/
theorem account_ledger_soldTwice :
    (Deployment.sample.world soldTwice).balance 12 + (1000 + 500000000000000) =
      10 ^ 18 + 700 + 5 := by
  have ledger := account_ledger Deployment.sample soldTwice 12 (by decide)
  have sums : ((Deployment.sample.history soldTwice).map fun receipt => sent 12 receipt.event).sum =
        1000 + 500000000000000 ∧
      proceeds 12 (Deployment.sample.history soldTwice) = 700 ∧
      ((Deployment.sample.history soldTwice).map fun receipt =>
        received 12 receipt.event).sum = 5 ∧
      Deployment.sample.balance 12 = 10 ^ 18 := by
    decide +kernel
  obtain ⟨spent, earned, gained, start⟩ := sums
  rw [spent, earned, gained, start] at ledger
  exact ledger

end Runs

end OpenBeach
