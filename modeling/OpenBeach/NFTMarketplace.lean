import OpenBeach.NFTCollection

/-!
# The marketplace contract

The state-changing functions of `NFTMarketplace`, in the order of the source. Each
returns the world it leaves; `this` is the marketplace's own address. A function
that calls no other contract and reads no block data is written over the
contract's storage alone. Attached value is credited before a body runs, by
`payable` in the dispatch of calls.
-/

namespace OpenBeach.NFTMarketplace

open Function Mappings

/-- 0.0005 ether in wei. No function changes it afterwards. -/
def initialListingFee : UInt256 := 500000000000000

/-- Storage as the compiler initialises it, with the inherited owner set. The guard is open, and
every mapping holds its default. -/
def initialStorage (initialOwner : Address) : NFTMarketplace where
  owner := initialOwner
  entered := false
  categories := []
  categoryExists := fun _ => false
  collections := fun _ => .unset
  collectionAddresses := []
  categoryToCollections := fun _ => []
  collectionToMarketItems := fun _ _ => .unset
  collectionTokenIds := fun _ => []
  pendingReturns := fun _ _ _ => 0
  itemOffers := fun _ _ => []
  userCreatedCollections := fun _ => []
  userPurchases := fun _ _ _ => false
  userPurchaseCount := fun _ => 0
  listingFee := initialListingFee

/-- The owner of the contract, as `Ownable` keeps it. What the contract inherits works on this
field alone. -/
def ownable : Ownable NFTMarketplace where
  owner s := s.owner
  setOwner s owner := { s with owner }

/-- `onlyOwner`. Only `addCategory` asks for it, besides the functions that hand the marketplace
over. -/
def checkOwner (sender : Address) (s : NFTMarketplace) : Except Revert Unit :=
  ownable.checkOwner sender s

/-- `addCategory`. A category has to be new, byte by byte; one that differs from another in its
case, or contains it, is new. -/
def addCategory (sender : Address) (category : Bytes) (s : NFTMarketplace) :
    Except Revert NFTMarketplace := do
  checkOwner sender s
  require (s.categoryExists category = false) "Category already exists"
  pure { s with
    categories := s.categories ++ [category]
    categoryExists := update s.categoryExists category true }

/-- The categories the constructor adds. They are spelled with capitals; searches do not care, but
the index does. -/
def constructorCategories : List Bytes :=
  [bytes "Art", bytes "Gaming", bytes "Memberships", bytes "Music", bytes "PFPs",
    bytes "Photography"]

/-- The constructor. The categories at the start are added one by one by the deployer, with the
checks of `addCategory`. -/
def constructor (sender : Address) : Except Revert NFTMarketplace := do
  ensure (sender ≠ 0) (.ownableInvalidOwner 0)
  constructorCategories.foldlM (fun s category => s.addCategory sender category)
    (initialStorage sender)

/-- `transferOwnership` of the marketplace, as it is inherited. -/
def transferOwnership (sender newOwner : Address) (s : NFTMarketplace) :
    Except Revert NFTMarketplace :=
  ownable.transferOwnership sender newOwner s

/-- `renounceOwnership` of the marketplace, as it is inherited. -/
def renounceOwnership (sender : Address) (s : NFTMarketplace) : Except Revert NFTMarketplace :=
  ownable.renounceOwnership sender s

/-- Run a body over the contract's storage alone. Such a function moves no ether and calls nobody. -/
def onStorage (body : NFTMarketplace → Except Revert NFTMarketplace) (w : World) :
    Except Revert World := do
  let marketplace ← body w.marketplace
  pure { w with marketplace }

/-- The `nonReentrant` modifier. The flag is set while the body runs, so whatever the body calls
finds the guard closed. -/
def nonReentrant (body : World → Except Revert World) (w : World) : Except Revert World := do
  ensure (w.marketplace.entered = false) .reentrancyGuardReentrantCall
  let w ← body { w with marketplace := { w.marketplace with entered := true } }
  pure { w with marketplace := { w.marketplace with entered := false } }

/-- `createCollection`. The address of the new contract is the chain's choice; it carries no code
yet. The list, the index by category and the index by creator are all written here. -/
def createCollection (this sender : Address) (name symbol baseURI category : Bytes)
    (newCollection : Address) (w : World) : Except Revert World := do
  require (w.marketplace.categoryExists category = true) "Invalid category"
  ensure (w.isOutside this newCollection = true) .addressInUse
  let storage ← NFTCollection.constructor name symbol baseURI this category sender
  let w := w.setCollection newCollection storage
  let s := w.marketplace
  let record : Collection :=
    { collectionAddress := newCollection, name, symbol, category, owner := sender
      isActive := true, createdAt := w.timestamp, baseURI, totalSupply := 0 }
  pure { w with marketplace := { s with
    collections := update s.collections newCollection record
    collectionAddresses := s.collectionAddresses ++ [newCollection]
    categoryToCollections := update s.categoryToCollections category
      (s.categoryToCollections category ++ [newCollection])
    userCreatedCollections := update s.userCreatedCollections sender
      (s.userCreatedCollections sender ++ [newCollection]) } }

/-- The record `createMarketItem` writes. The token has no buyer and no bid, and is not on
auction. -/
def listedItem (collection : Address) (tokenId : UInt256) (seller : Address) (price : UInt256)
    (tokenURI : Bytes) : MarketItem :=
  { tokenId, nftContract := collection, seller, owner := 0, price, isOnSale := true
    auctionEndTime := 0, highestBidder := 0, highestBid := 0, isAuction := false, tokenURI }

/-- Read a token's URI from its collection. It asks for the token before it is transferred, so it
fails for one that does not exist. -/
def readTokenURI (collection : Address) (tokenId : UInt256) (w : World) : Except Revert Bytes :=
  match w.deployed collection with
  | none => .error .noContract
  | some storage => storage.tokenURI tokenId

/-- `createMarketItem`. The record of the token is overwritten, its number is put in the list of
the collection whether it is there already or not, and last the token is transferred. -/
def createMarketItem (this : Address) (msg : Msg) (collection : Address)
    (tokenId price : UInt256) : World → Except Revert World :=
  nonReentrant fun w => do
    require ((w.marketplace.collections collection).isActive = true) "Collection does not exist"
    require (0 < price) "Price must be greater than zero"
    require (msg.value = w.marketplace.listingFee) "Must pay listing fee"
    let tokenURI ← readTokenURI collection tokenId w
    let w := w.setItem collection tokenId (listedItem collection tokenId msg.sender price tokenURI)
    let w := { w with marketplace := { w.marketplace with
      collectionTokenIds := update w.marketplace.collectionTokenIds collection
        (w.marketplace.collectionTokenIds collection ++ [tokenId]) } }
    w.callCollection collection (NFTCollection.transferFrom this msg.sender this tokenId)

/-- `createMarketSale`. The item is closed first, then the seller is paid and the token handed
over, and last the purchase is recorded and counted. -/
def createMarketSale (this : Address) (msg : Msg) (collection : Address) (tokenId : UInt256) :
    World → Except Revert World :=
  nonReentrant fun w => do
    let item := w.item collection tokenId
    require (item.isOnSale = true) "Item is not on sale"
    require (item.isAuction = false) "Item is on auction"
    require (msg.value = item.price) "Please submit the asking price"
    let w := w.setItem collection tokenId { item with isOnSale := false, owner := msg.sender }
    let w ← w.transferEther this this item.seller msg.value.toNat
    let w ← w.callCollection collection (NFTCollection.transferFrom this this msg.sender tokenId)
    let userPurchases :=
      update₃ w.marketplace.userPurchases msg.sender collection tokenId true
    let count ← checkedAdd (w.marketplace.userPurchaseCount msg.sender) 1
    let userPurchaseCount := update w.marketplace.userPurchaseCount msg.sender count
    pure { w with marketplace := { w.marketplace with userPurchases, userPurchaseCount } }

/-- `createAuction`. It is the seller who is asked for, not whether the item is on sale, and the
starting price is taken as it is. -/
def createAuction (sender collection : Address) (tokenId startingPrice duration : UInt256) :
    World → Except Revert World :=
  nonReentrant fun w => do
    let item := w.item collection tokenId
    require (item.seller = sender) "Only seller can start auction"
    require (item.isAuction = false) "Already on auction"
    let auctionEndTime ← checkedAdd w.timestamp duration
    pure (w.setItem collection tokenId
      { item with isAuction := true, price := startingPrice, auctionEndTime })

/-- The refund `placeBid` credits to a bidder it replaces. A standing bid without a bidder is the
absence of one. The sum is checked. -/
def creditReturn (collection : Address) (tokenId : UInt256) (item : MarketItem) (w : World) :
    Except Revert World :=
  if item.highestBidder ≠ 0 then do
    let s := w.marketplace
    let credit ← checkedAdd (s.pendingReturns collection tokenId item.highestBidder) item.highestBid
    let pendingReturns :=
      update₃ s.pendingReturns collection tokenId item.highestBidder credit
    pure { w with marketplace := { s with pendingReturns } }
  else pure w

/-- `placeBid`. A bid has to exceed the standing one, which is credited to its bidder. The price
of the item is not read. -/
def placeBid (msg : Msg) (collection : Address) (tokenId : UInt256) :
    World → Except Revert World :=
  nonReentrant fun w => do
    let item := w.item collection tokenId
    require (item.isAuction = true) "Not an auction"
    require (w.timestamp < item.auctionEndTime) "Auction ended"
    require (item.highestBid < msg.value) "Bid too low"
    let w ← creditReturn collection tokenId item w
    pure (w.setItem collection tokenId
      { item with highestBidder := msg.sender, highestBid := msg.value })

/-- `makeOffer`. The value stays with the marketplace, and the offer is put behind the others.
There is no function that accepts an offer, or takes it back. -/
def makeOffer (msg : Msg) (collection : Address) (tokenId : UInt256) :
    World → Except Revert World :=
  nonReentrant fun w => do
    let item := w.item collection tokenId
    require (item.isOnSale = true) "Item not on sale"
    require (item.isAuction = false) "Item is on auction"
    require (0 < msg.value) "Offer must be greater than zero"
    let s := w.marketplace
    let offer : Offer := { buyer := msg.sender, price := msg.value, timestamp := w.timestamp }
    let itemOffers :=
      update₂ s.itemOffers collection tokenId (s.itemOffers collection tokenId ++ [offer])
    pure { w with marketplace := { s with itemOffers } }

/-- `updateCollectionTotalSupply`: the collection itself reports its supply. The number is read
from the collection, not taken from the call. -/
def updateCollectionTotalSupply (sender collection : Address) (w : World) :
    Except Revert World := do
  let s := w.marketplace
  require ((s.collections collection).isActive = true) "Collection does not exist"
  require (sender = collection) "Only collection contract can update its supply"
  match w.deployed collection with
  | none => .error .noContract
  | some storage =>
    let record := { s.collections collection with totalSupply := storage.totalSupply }
    pure { w with marketplace := { s with collections := update s.collections collection record } }

end OpenBeach.NFTMarketplace
