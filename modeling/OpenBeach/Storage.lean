import OpenBeach.Library.Mappings
import OpenBeach.Solidity

/-!
# Storage of the contracts and the world they run in

The marketplace and each collection it deployed keep their own storage. The world
adds what they observe of the chain: the time of the current block, every
account's ether, and how accounts outside the two contracts answer them.

Mappings are total functions whose default is the zero value. Storage that no
function of the contracts reads is left out.
-/

namespace OpenBeach

open Function Mappings

/-- The marketplace's record of a collection. It is written when the collection is created;
afterwards only the supply is. -/
structure Collection where
  collectionAddress : Address
  name : Bytes
  symbol : Bytes
  category : Bytes
  owner : Address
  isActive : Bool
  createdAt : UInt256
  baseURI : Bytes
  totalSupply : UInt256
deriving DecidableEq

/-- What the mapping of collections holds for an address that was never registered. -/
def Collection.unset : Collection := ⟨0, [], [], [], 0, false, 0, [], 0⟩

/-- A token as the marketplace has it: the listing, the auction and the standing bid in one
record. While it is listed the marketplace is its `owner`; a sale puts the buyer there. -/
structure MarketItem where
  tokenId : UInt256
  nftContract : Address
  seller : Address
  owner : Address
  price : UInt256
  isOnSale : Bool
  auctionEndTime : UInt256
  highestBidder : Address
  highestBid : UInt256
  isAuction : Bool
  tokenURI : Bytes
deriving DecidableEq

/-- What the mapping of items holds for a token that was never listed. -/
def MarketItem.unset : MarketItem := ⟨0, 0, 0, 0, 0, false, 0, 0, 0, false, []⟩

/-- An offer with its value and the time it was made. There is no field for what became of it. -/
structure Offer where
  buyer : Address
  price : UInt256
  timestamp : UInt256
deriving DecidableEq

/-- Storage of `NFTMarketplace`. The owner is inherited from `Ownable`; `entered` is the status
flag of `ReentrancyGuard`. The fields are those of the contract, in its order, with mappings as
functions. -/
structure NFTMarketplace where
  owner : Address
  entered : Bool
  categories : List Bytes
  categoryExists : Bytes → Bool
  collections : Address → Collection
  collectionAddresses : List Address
  categoryToCollections : Bytes → List Address
  collectionToMarketItems : Address → UInt256 → MarketItem
  collectionTokenIds : Address → List UInt256
  pendingReturns : Address → UInt256 → Address → UInt256
  itemOffers : Address → UInt256 → List Offer
  userCreatedCollections : Address → List Address
  userPurchases : Address → Address → UInt256 → Bool
  userPurchaseCount : Address → UInt256
  listingFee : UInt256

/-- Storage of `NFTCollection`: the inherited `ERC721`, `ERC721URIStorage` and `Ownable` state,
then its own. The marketplace it reports to is whatever its creator said. -/
structure NFTCollection where
  name : Bytes
  symbol : Bytes
  owners : UInt256 → Address
  tokenApprovals : UInt256 → Address
  operatorApprovals : Address → Address → Bool
  tokenURIs : UInt256 → Bytes
  owner : Address
  tokenIds : UInt256
  baseURI : Bytes
  marketplaceAddress : Address
  category : Bytes

/-- What the contracts can observe of an account outside them: whether a safe
transfer calls it, and whether it accepts a plain payment. -/
structure Account where
  hasCode : Bool
  acceptsEther : Bool
deriving DecidableEq

/-- Everything the contracts can read: their own storage, that of the collections, the accounts
around them with their ether, and the time of the block. -/
structure World where
  marketplace : NFTMarketplace
  deployed : Address → Option NFTCollection
  accounts : Address → Account
  balance : Address → Nat
  timestamp : UInt256

/-- The listing record of a token. Every token of every address has one, also those that were
never listed. -/
def World.item (w : World) (collection : Address) (tokenId : UInt256) : MarketItem :=
  w.marketplace.collectionToMarketItems collection tokenId

/-- The ERC721 owner of a token of the given contracts; zero when there is no such
token. -/
def ownerIn (deployed : Address → Option NFTCollection) (collection : Address)
    (tokenId : UInt256) : Address :=
  match deployed collection with
  | none => 0
  | some storage => storage.owners tokenId

/-- Who holds a token, or zero if there is no such token or no such collection. -/
def World.ownerOf (w : World) (collection : Address) (tokenId : UInt256) : Address :=
  ownerIn w.deployed collection tokenId

/-- Replace a listing record. Other tokens, and the lists of numbers, stay as they are. -/
def World.setItem (w : World) (collection : Address) (tokenId : UInt256) (item : MarketItem) :
    World :=
  { w with marketplace := { w.marketplace with
      collectionToMarketItems :=
        update₂ w.marketplace.collectionToMarketItems collection tokenId item } }

/-- Replace a collection's storage. This is also how a new contract comes into being. -/
def World.setCollection (w : World) (collection : Address) (storage : NFTCollection) : World :=
  { w with deployed := update w.deployed collection (some storage) }

/-- An account that can send calls of its own: neither zero nor one of the contracts. Calls of the
contracts themselves are part of the functions that make them. -/
def World.isOutside (this : Address) (w : World) (account : Address) : Bool :=
  account ≠ 0 && account ≠ this && (w.deployed account).isNone

/-- Whether a plain payment to the account succeeds. Neither contract has a receive function. For
any other account it is a matter of its code, and can change. -/
def World.acceptsEther (this : Address) (w : World) (account : Address) : Bool :=
  account ≠ this && (w.deployed account).isNone && (w.accounts account).acceptsEther

/-- Move ether between accounts; nobody can spend more than they hold. Source and target may be
one account, so the second balance is read after the first is written. -/
def World.moveEther (source target : Address) (amount : Nat) (w : World) :
    Except Revert World := do
  ensure (amount ≤ w.balance source) .insufficientBalance
  let balance := update w.balance source (w.balance source - amount)
  pure { w with balance := update balance target (balance target + amount) }

/-- `payable(target).transfer(amount)` from a contract. It reverts if the target refuses; the
amount of gas it passes on lets nobody act. -/
def World.transferEther (this source target : Address) (amount : Nat) (w : World) :
    Except Revert World := do
  ensure (w.acceptsEther this target = true) .etherRefused
  w.moveEther source target amount

/-- Call a collection; an address without a contract cannot be called. A failure inside is a
failure of the caller. -/
def World.callCollection (collection : Address)
    (body : NFTCollection → Except Revert NFTCollection) (w : World) : Except Revert World :=
  match w.deployed collection with
  | none => .error .noContract
  | some storage => do
    let storage ← body storage
    pure (w.setCollection collection storage)

end OpenBeach
