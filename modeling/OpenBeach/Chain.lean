import OpenBeach.Library.NestedCalls
import OpenBeach.NFTMarketplace

/-!
# Calls, callbacks and runs

Every externally reachable function of the two contracts is an action, besides
what the surrounding chain does on its own: payments between other accounts, a
change in how such an account answers, and the next block.

`mint` and `safeTransferFrom` call a recipient that has code. The action then
stops, and control returns only when the recipient does; everything that happens
in between is part of the run. The marketplace's own external calls reach only
collections, and accounts with too little gas to act.
-/

namespace OpenBeach

open Function Mappings NestedCalls

namespace NFTMarketplace

/-- The state-changing functions with their arguments. Creating a collection also
fixes the address the chain gives it. -/
inductive Call where
  | addCategory (category : Bytes) : Call
  | createCollection (name symbol baseURI category : Bytes) (newCollection : Address) : Call
  | createMarketItem (collection : Address) (tokenId price : UInt256) : Call
  | createMarketSale (collection : Address) (tokenId : UInt256) : Call
  | createAuction (collection : Address) (tokenId startingPrice duration : UInt256) : Call
  | placeBid (collection : Address) (tokenId : UInt256) : Call
  | makeOffer (collection : Address) (tokenId : UInt256) : Call
  | updateCollectionTotalSupply (collection : Address) : Call
  | transferOwnership (newOwner : Address) : Call
  | renounceOwnership : Call
deriving DecidableEq

/-- A payable function: the attached value is credited before the body runs. If the body fails,
the payment is undone with it. -/
def payable (this : Address) (msg : Msg) (body : World → Except Revert World) (w : World) :
    Except Revert World := do
  let w ← w.moveEther msg.sender this msg.value.toNat
  body w

/-- A function that is not payable refuses value. The compiler inserts the check. -/
def nonPayable (msg : Msg) (body : World → Except Revert World) (w : World) :
    Except Revert World := do
  ensure (msg.value = 0) .nonPayable
  body w

/-- A call of the marketplace by its selector. The functions that are not payable refuse ether. -/
def call (this : Address) (msg : Msg) : Call → World → Except Revert World
  | .addCategory category => nonPayable msg (onStorage (addCategory msg.sender category))
  | .createCollection name symbol baseURI category newCollection =>
    nonPayable msg (createCollection this msg.sender name symbol baseURI category newCollection)
  | .createMarketItem collection tokenId price =>
    payable this msg (createMarketItem this msg collection tokenId price)
  | .createMarketSale collection tokenId =>
    payable this msg (createMarketSale this msg collection tokenId)
  | .createAuction collection tokenId startingPrice duration =>
    nonPayable msg (createAuction msg.sender collection tokenId startingPrice duration)
  | .placeBid collection tokenId => payable this msg (placeBid msg collection tokenId)
  | .makeOffer collection tokenId => payable this msg (makeOffer msg collection tokenId)
  | .updateCollectionTotalSupply collection =>
    nonPayable msg (updateCollectionTotalSupply msg.sender collection)
  | .transferOwnership newOwner => nonPayable msg (onStorage (transferOwnership msg.sender newOwner))
  | .renounceOwnership => nonPayable msg (onStorage (renounceOwnership msg.sender))

end NFTMarketplace

namespace NFTCollection

/-- The state-changing functions with their arguments. The overloads of
`safeTransferFrom` differ only in the data handed to the recipient. -/
inductive Call where
  | mint (recipient : Address) (tokenURI : Bytes) : Call
  | approve (target : Address) (tokenId : UInt256) : Call
  | setApprovalForAll (operator : Address) (approved : Bool) : Call
  | transferFrom (source target : Address) (tokenId : UInt256) : Call
  | safeTransferFrom (source target : Address) (tokenId : UInt256) : Call
  | transferOwnership (newOwner : Address) : Call
  | renounceOwnership : Call
deriving DecidableEq

end NFTCollection

/-- What remains of an interrupted action. Which recipient it waits for does not matter; it goes
on when that one returns. -/
inductive Pending where
  | mint (collection : Address) (newTokenId : UInt256) (tokenURI : Bytes) : Pending
  | safeTransferFrom : Pending
  | outsideCall : Pending
deriving DecidableEq

/-- A call to the marketplace from one of its collections. No other contract offers the function.
A collection that was told another address for its marketplace calls in vain, and the call that it
is part of fails. -/
def callMarketplace (this target : Address) (body : World → Except Revert World) (w : World) :
    Except Revert World :=
  if target = this then body w else .error .noContract

/-- Finish an interrupted action. After the callback `mint` stores the URI and
reports the supply; a safe transfer has nothing left to do. -/
def resume (this : Address) : Pending → World → Except Revert World
  | .mint collection newTokenId tokenURI, w =>
    match w.deployed collection with
    | none => .error .noContract
    | some storage =>
      callMarketplace this storage.marketplaceAddress
        (NFTMarketplace.updateCollectionTotalSupply collection collection)
        (w.setCollection collection (storage.setTokenURI newTokenId tokenURI))
  | .safeTransferFrom, w => .ok w
  | .outsideCall, w => .ok w

/-- `checkOnERC721Received`: an account without code is not called, the two
contracts do not implement the callback, and any other contract takes over. -/
def checkOnERC721Received (this recipient : Address) (rest : Pending) (w : World) :
    Except Revert (World × Option Pending) :=
  if w.isOutside this recipient = true then
    if (w.accounts recipient).hasCode = true then .ok (w, some rest)
    else do
      let w ← resume this rest w
      pure (w, none)
  else .error (.erc721InvalidReceiver recipient)

/-- `mint` up to its end or to the recipient's callback. Whoever may mint is checked first, so a
callback comes from a mint of the owner. -/
def mint (this sender collection recipient : Address) (tokenURI : Bytes) (w : World) :
    Except Revert (World × Option Pending) :=
  match w.deployed collection with
  | none => .error .noContract
  | some storage => do
    let (newTokenId, storage) ← storage.beginMint sender recipient
    checkOnERC721Received this recipient (.mint collection newTokenId tokenURI)
      (w.setCollection collection storage)

/-- `safeTransferFrom` up to its end or to the recipient's callback. The token is with the
recipient already when it is called. -/
def safeTransferFrom (this sender collection source target : Address) (tokenId : UInt256)
    (w : World) : Except Revert (World × Option Pending) := do
  let w ← w.callCollection collection (NFTCollection.transferFrom sender source target tokenId)
  checkOnERC721Received this target .safeTransferFrom w

/-- An action that cannot be interrupted. It leaves nothing to do. -/
def completed (result : Except Revert World) : Except Revert (World × Option Pending) := do
  let w ← result
  pure (w, none)

namespace NFTCollection

/-- A call of a collection by its selector. Minting and the safe transfer may be interrupted by
their recipient; the others run to their ends. -/
def call (this sender collection : Address) (call : Call) (w : World) :
    Except Revert (World × Option Pending) :=
  match call with
  | .mint recipient tokenURI => mint this sender collection recipient tokenURI w
  | .safeTransferFrom source target tokenId =>
    OpenBeach.safeTransferFrom this sender collection source target tokenId w
  | .approve target tokenId =>
    completed (w.callCollection collection (approve sender target tokenId))
  | .setApprovalForAll operator approved =>
    completed (w.callCollection collection (setApprovalForAll sender operator approved))
  | .transferFrom source target tokenId =>
    completed (w.callCollection collection (transferFrom sender source target tokenId))
  | .transferOwnership newOwner =>
    completed (w.callCollection collection (transferOwnership sender newOwner))
  | .renounceOwnership => completed (w.callCollection collection (renounceOwnership sender))

end NFTCollection

/-- One thing that can happen on the chain. `outsideCall` opens a call between other
contracts, which may fail as a whole. `moveEther` pays from an outside account; paid
to the marketplace, it is ether forced on it outside its functions. -/
inductive Action where
  | marketplace (msg : Msg) (call : NFTMarketplace.Call) : Action
  | collection (sender collection : Address) (call : NFTCollection.Call) : Action
  | outsideCall : Action
  | moveEther (source target : Address) (amount : Nat) : Action
  | setAccount (address : Address) (account : Account) : Action
  | nextBlock (timestamp : UInt256) : Action
deriving DecidableEq

/-- Calls start from outside accounts, and time does not run backwards. What fails leaves no
trace, since the world is only changed by success. -/
def execute (this : Address) (action : Action) (w : World) :
    Except Revert (World × Option Pending) :=
  match action with
  | .marketplace msg call => do
    ensure (w.isOutside this msg.sender = true) .notAnOutsideAccount
    completed (NFTMarketplace.call this msg call w)
  | .collection sender collection call => do
    ensure (w.isOutside this sender = true) .notAnOutsideAccount
    NFTCollection.call this sender collection call w
  | .outsideCall => .ok (w, some .outsideCall)
  | .moveEther source target amount => do
    ensure (w.isOutside this source = true) .notAnOutsideAccount
    completed (w.moveEther source target amount)
  | .setAccount address account => .ok ({ w with accounts := update w.accounts address account }, none)
  | .nextBlock timestamp => do
    ensure (w.timestamp ≤ timestamp) .timestampDecreases
    pure ({ w with timestamp }, none)

/-- The chain as a system of nested calls; only a block ends between transactions. So the time
stands still while calls are in progress. -/
def chain (this : Address) : Semantics World Action Pending Revert where
  execute := execute this
  resume := resume this
  outermost
    | .nextBlock _ => true
    | _ => false

/-- A marketplace about to receive its first call: its constructor ran, no
collection exists yet, and all ether in existence is below 2²⁵⁶ wei. -/
structure Deployment where
  address : Address
  deployer : Address
  storage : NFTMarketplace
  accounts : Address → Account
  balance : Address → Nat
  timestamp : UInt256
  address_ne_zero : address ≠ 0
  constructed : NFTMarketplace.constructor deployer = .ok storage
  supply_bound : total balance < 2 ^ 256

namespace Deployment

/-- The world before the first call: nothing is deployed but the marketplace. The storage of the
marketplace is that of its constructor. -/
def genesis (deployment : Deployment) : World where
  marketplace := deployment.storage
  deployed := fun _ => none
  accounts := deployment.accounts
  balance := deployment.balance
  timestamp := deployment.timestamp

/-- The configuration that some moves reach from the deployment. Every interleaving of calls,
callbacks and failures is some list of moves. -/
def run (deployment : Deployment) (moves : List (Move Action)) : Config World Action Pending :=
  (Config.initial deployment.genesis).run (chain deployment.address) moves

/-- The state those moves reach. Properties of every reachable state are properties of this for
all moves. -/
abbrev world (deployment : Deployment) (moves : List (Move Action)) : World :=
  (deployment.run moves).current.state

/-- The successful events behind that state, most recent first. What was rolled back is not in it. -/
abbrev history (deployment : Deployment) (moves : List (Move Action)) :
    List (Receipt World Action Pending) :=
  (deployment.run moves).current.history

/-- One ether each for the accounts 11, 12 and 13. Everybody else has nothing. -/
def sampleBalance : Address → Nat :=
  update (update (update (fun _ => 0) 11 (10 ^ 18)) 12 (10 ^ 18)) 13 (10 ^ 18)

/-- The sample deployment has three ether in all, which is below the bound. -/
theorem total_sampleBalance : total sampleBalance = 3 * 10 ^ 18 := by
  have first := total_update (fun _ : Address => 0) 11 (10 ^ 18)
  have second := total_update (update (fun _ : Address => 0) 11 (10 ^ 18)) 12 (10 ^ 18)
  have third := total_update
    (update (update (fun _ : Address => 0) 11 (10 ^ 18)) 12 (10 ^ 18)) 13 (10 ^ 18)
  have others : update (fun _ : Address => 0) 11 (10 ^ 18) 12 = 0 ∧
      update (update (fun _ : Address => 0) 11 (10 ^ 18)) 12 (10 ^ 18) 13 = 0 := by decide
  rw [total_zero] at first
  unfold sampleBalance
  omega

/-- A marketplace at address 1 with three funded users, none of them a contract. Its constructor
was run by account 2. -/
def sample : Deployment where
  address := 1
  deployer := 2
  storage := (NFTMarketplace.constructor 2).toOption.getD (NFTMarketplace.initialStorage 2)
  accounts := fun _ => ⟨false, true⟩
  balance := sampleBalance
  timestamp := 1000
  address_ne_zero := by decide
  constructed := by rfl
  supply_bound := by
    rw [total_sampleBalance]
    decide

/-- Account 11 creates a collection at address 100, mints its token 1 and lists it for
1000 wei. -/
def sampleListing : List (Move Action) :=
  [.act (.marketplace ⟨11, 0⟩ (.createCollection (bytes "Apes") (bytes "APE") [] (bytes "Art") 100)),
    .act (.collection 11 100 (.mint 11 (bytes "ipfs://ape"))),
    .act (.collection 11 100 (.approve 1 1)),
    .act (.marketplace ⟨11, NFTMarketplace.initialListingFee⟩ (.createMarketItem 100 1 1000))]

end Deployment

end OpenBeach
