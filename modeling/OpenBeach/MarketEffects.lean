import OpenBeach.TokenEffects

/-!
# What the marketplace functions do

One law for each state-changing function of the marketplace: exactly when it
completes, and the world it leaves. The laws resolve the modifiers, the external
calls and the checked arithmetic once, so no later proof unfolds a function.
-/

namespace OpenBeach

open Function Mappings

/-- Balances after a payment, also when payer and payee are one account. The source is debited
first. -/
def movedBalance (balance : Address → Nat) (source target : Address) (amount : Nat) :
    Address → Nat :=
  let taken := update balance source (balance source - amount)
  update taken target (taken target + amount)

/-- A payment needs cover, and moves exactly the amount. A payment to oneself changes nothing. -/
theorem moveEther_ok {source target : Address} {amount : Nat} {w after : World} :
    w.moveEther source target amount = .ok after ↔
      amount ≤ w.balance source ∧
        after = { w with balance := movedBalance w.balance source target amount } := by
  unfold World.moveEther movedBalance
  simp only [bind_ok, ensure_ok, pure_ok, exists_const]

/-- Payments create no ether and lose none. This is where the cover is needed. -/
theorem total_movedBalance (balance : Address → Nat) (source target : Address) (amount : Nat)
    (covered : amount ≤ balance source) :
    total (movedBalance balance source target amount) = total balance :=
  total_move balance source target amount covered

/-- A payment between different accounts adds to the payee. A sale is a payment between different
accounts unless a seller buys from itself. -/
theorem movedBalance_target (balance : Address → Nat) {source target : Address} (amount : Nat)
    (different : source ≠ target) :
    movedBalance balance source target amount target = balance target + amount := by
  simp [movedBalance, update_of_ne different.symm]

/-- A payment between different accounts takes from the payer. The cover is not needed for this;
without it the difference is cut off at zero. -/
theorem movedBalance_source (balance : Address → Nat) {source target : Address} (amount : Nat)
    (different : source ≠ target) :
    movedBalance balance source target amount source = balance source - amount := by
  simp [movedBalance, update_of_ne different]

/-- Third parties are unaffected. Most accounts are third parties to most payments. -/
theorem movedBalance_other (balance : Address → Nat) {source target account : Address}
    (amount : Nat) (notSource : account ≠ source) (notTarget : account ≠ target) :
    movedBalance balance source target amount account = balance account := by
  simp [movedBalance, update_of_ne notSource, update_of_ne notTarget]

/-- What an account receives and passes on in full does not concern it. So a sale moves the price
from the buyer to the seller, as if the marketplace had not been in between. -/
theorem movedBalance_through (balance : Address → Nat) {source middle target : Address}
    (amount : Nat) (first : source ≠ middle) (second : middle ≠ target) :
    movedBalance (movedBalance balance source middle amount) middle target amount =
      movedBalance balance source target amount := by
  funext account
  by_cases atMiddle : account = middle
  · subst atMiddle
    simp [movedBalance, first.symm, second]
  · by_cases atTarget : account = target
    · subst atTarget
      by_cases same : account = source <;> simp [movedBalance, atMiddle, same]
    · by_cases same : account = source <;> simp [movedBalance, atTarget, same]

/-- What `transfer` does: the target has to take the ether, and the source has to have it. -/
theorem transferEther_ok {this source target : Address} {amount : Nat} {w after : World} :
    w.transferEther this source target amount = .ok after ↔
      w.acceptsEther this target = true ∧ amount ≤ w.balance source ∧
        after = { w with balance := movedBalance w.balance source target amount } := by
  unfold World.transferEther
  simp only [bind_ok, ensure_ok, moveEther_ok, exists_const]

/-- A call of a collection changes the storage of that collection alone, as its function says.
There has to be a collection at the address. -/
theorem callCollection_ok {collection : Address}
    {body : NFTCollection → Except Revert NFTCollection} {w after : World} :
    w.callCollection collection body = .ok after ↔
      ∃ s result, w.deployed collection = some s ∧ body s = .ok result ∧
        after = w.setCollection collection result := by
  unfold World.callCollection
  cases w.deployed collection with
  | none => simp
  | some storage => simp

namespace NFTMarketplace

/-- A guarded function runs only from outside, with the flag set meanwhile and cleared at the end.
What it calls cannot enter it again. -/
theorem nonReentrant_ok {body : World → Except Revert World} {w after : World} :
    nonReentrant body w = .ok after ↔
      w.marketplace.entered = false ∧ ∃ inside,
        body { w with marketplace := { w.marketplace with entered := true } } = .ok inside ∧
        after = { inside with marketplace := { inside.marketplace with entered := false } } := by
  unfold nonReentrant
  simp only [bind_ok, ensure_ok, pure_ok, exists_const]

/-- A payable function needs a sender that has the value, and runs with the value credited.
Whether the body reads the value is up to the body. -/
theorem payable_ok {this : Address} {msg : Msg} {body : World → Except Revert World}
    {w after : World} :
    payable this msg body w = .ok after ↔
      msg.value.toNat ≤ w.balance msg.sender ∧
        body { w with balance := movedBalance w.balance msg.sender this msg.value.toNat } =
          .ok after := by
  unfold payable
  simp only [bind_ok, moveEther_ok]
  constructor
  · rintro ⟨_, ⟨funded, rfl⟩, completed⟩
    exact ⟨funded, completed⟩
  · rintro ⟨funded, completed⟩
    exact ⟨_, ⟨funded, rfl⟩, completed⟩

/-- A function that is not payable runs only without value, and is not charged anything. The
balance of the sender plays no part. -/
theorem nonPayable_ok {msg : Msg} {body : World → Except Revert World} {w after : World} :
    nonPayable msg body w = .ok after ↔ msg.value = 0 ∧ body w = .ok after := by
  unfold nonPayable
  simp only [bind_ok, ensure_ok, exists_const]

/-- A function that reads and writes the storage of the marketplace leaves the rest of the world
as it is. -/
theorem onStorage_ok {body : NFTMarketplace → Except Revert NFTMarketplace} {w after : World} :
    onStorage body w = .ok after ↔
      ∃ marketplace, body w.marketplace = .ok marketplace ∧ after = { w with marketplace } := by
  unfold onStorage
  simp only [bind_ok, pure_ok]

/-- When a category can be added: by the owner, if it is new; it is put last. -/
theorem addCategory_ok {sender : Address} {category : Bytes} {s after : NFTMarketplace} :
    addCategory sender category s = .ok after ↔
      s.owner = sender ∧ s.categoryExists category = false ∧
        after = { s with
          categories := s.categories ++ [category]
          categoryExists := update s.categoryExists category true } := by
  unfold addCategory checkOwner
  simp only [bind_ok, Ownable.checkOwner_ok, ownable, require_ok, pure_ok, exists_const]

/-- When the marketplace can be handed over: by its owner, to anybody but zero. Nothing but the
owner is written. -/
theorem transferOwnership_ok {sender newOwner : Address} {s after : NFTMarketplace} :
    transferOwnership sender newOwner s = .ok after ↔
      s.owner = sender ∧ newOwner ≠ 0 ∧ after = { s with owner := newOwner } :=
  Ownable.transferOwnership_ok

/-- When the marketplace can be given up: by its owner, and then it has none. Then no category can
be added any more. -/
theorem renounceOwnership_ok {sender : Address} {s after : NFTMarketplace} :
    renounceOwnership sender s = .ok after ↔ s.owner = sender ∧ after = { s with owner := 0 } :=
  Ownable.renounceOwnership_ok

/-- The record a new collection gets. The supply is zero, since a new collection has no tokens. -/
def newRecord (sender : Address) (name symbol baseURI category : Bytes) (newCollection : Address)
    (createdAt : UInt256) : Collection :=
  { collectionAddress := newCollection, name, symbol, category, owner := sender
    isActive := true, createdAt, baseURI, totalSupply := 0 }

/-- Storage after a collection was registered. All structures that list collections are written at
once. -/
def registering (s : NFTMarketplace) (sender : Address) (record : Collection) : NFTMarketplace :=
  let newCollection := record.collectionAddress
  { s with
    collections := update s.collections newCollection record
    collectionAddresses := s.collectionAddresses ++ [newCollection]
    categoryToCollections := update s.categoryToCollections record.category
      (s.categoryToCollections record.category ++ [newCollection])
    userCreatedCollections := update s.userCreatedCollections sender
      (s.userCreatedCollections sender ++ [newCollection]) }

/-- When a collection can be created, and what is registered of it. The category has to exist, and
the address of the new contract has to be unused. -/
theorem createCollection_ok {this sender newCollection : Address}
    {name symbol baseURI category : Bytes} {w after : World} :
    createCollection this sender name symbol baseURI category newCollection w = .ok after ↔
      w.marketplace.categoryExists category = true ∧ w.isOutside this newCollection = true ∧
        ∃ storage, NFTCollection.constructor name symbol baseURI this category sender =
            .ok storage ∧
          after = { w.setCollection newCollection storage with
            marketplace := w.marketplace.registering sender
              (newRecord sender name symbol baseURI category newCollection w.timestamp) } := by
  unfold createCollection
  simp only [bind_ok, ensure_ok, require_ok, pure_ok, exists_const]
  rfl

/-- Storage after a listing. The number is put at the end of the list of the collection, again if
it is there already. -/
def listing (s : NFTMarketplace) (collection : Address) (tokenId : UInt256) (item : MarketItem) :
    NFTMarketplace :=
  { s with
    entered := false
    collectionToMarketItems := update₂ s.collectionToMarketItems collection tokenId item
    collectionTokenIds := update s.collectionTokenIds collection
      (s.collectionTokenIds collection ++ [tokenId]) }

/-- When a token can be listed, and what a listing leaves. Nothing is asked about the record that
is overwritten, so a standing bid there is forgotten. -/
theorem createMarketItem_ok {this collection : Address} {msg : Msg} {tokenId price : UInt256}
    {w after : World} :
    createMarketItem this msg collection tokenId price w = .ok after ↔
      w.marketplace.entered = false ∧ (w.marketplace.collections collection).isActive = true ∧
        0 < price ∧ msg.value = w.marketplace.listingFee ∧ ∃ s result,
          w.deployed collection = some s ∧ s.owners tokenId ≠ 0 ∧
          NFTCollection.transferFrom this msg.sender this tokenId s = .ok result ∧
          after = { w with
            marketplace := w.marketplace.listing collection tokenId
              (listedItem collection tokenId msg.sender price (s.tokenURIs tokenId))
            deployed := update w.deployed collection (some result) } := by
  unfold createMarketItem readTokenURI
  simp only [nonReentrant_ok, bind_ok, require_ok, exists_const, callCollection_ok]
  cases found : w.deployed collection with
  | none => simp
  | some s =>
    simp only [Option.some.injEq, NFTCollection.tokenURI_ok]
    constructor
    · rintro ⟨unlocked, _, ⟨active, positive, fee, _, ⟨existing, rfl⟩, s', result, here, moved, rfl⟩,
        rfl⟩
      obtain rfl : s = s' := Option.some.inj (found.symm.trans here)
      exact ⟨unlocked, active, positive, fee, s, result, rfl, existing, moved, rfl⟩
    · rintro ⟨unlocked, active, positive, fee, _, result, rfl, existing, moved, rfl⟩
      exact ⟨unlocked, _, ⟨active, positive, fee, _, ⟨existing, rfl⟩, s, result, found, moved, rfl⟩,
        rfl⟩

/-- Storage after a sale. The item is closed, with the buyer as its owner, and the purchase is
recorded and counted. -/
def selling (s : NFTMarketplace) (collection : Address) (tokenId : UInt256) (item : MarketItem)
    (buyer : Address) (count : UInt256) : NFTMarketplace :=
  { s with
    entered := false
    collectionToMarketItems := update₂ s.collectionToMarketItems collection tokenId
      { item with isOnSale := false, owner := buyer }
    userPurchases := update₃ s.userPurchases buyer collection tokenId true
    userPurchaseCount := update s.userPurchaseCount buyer count }

/-- When a token can be bought, and what a purchase leaves. The value equals the price and goes to
the seller at once, so the marketplace has to hold it and the seller has to take it. -/
theorem createMarketSale_ok {this collection : Address} {msg : Msg} {tokenId : UInt256}
    {w after : World} :
    createMarketSale this msg collection tokenId w = .ok after ↔
      w.marketplace.entered = false ∧ (w.item collection tokenId).isOnSale = true ∧
        (w.item collection tokenId).isAuction = false ∧
        msg.value = (w.item collection tokenId).price ∧
        w.acceptsEther this (w.item collection tokenId).seller = true ∧
        msg.value.toNat ≤ w.balance this ∧ ∃ s result count,
          w.deployed collection = some s ∧
          NFTCollection.transferFrom this this msg.sender tokenId s = .ok result ∧
          count.toNat = (w.marketplace.userPurchaseCount msg.sender).toNat + 1 ∧
          after = { w with
            marketplace := w.marketplace.selling collection tokenId (w.item collection tokenId)
              msg.sender count
            balance := movedBalance w.balance this (w.item collection tokenId).seller
              msg.value.toNat
            deployed := update w.deployed collection (some result) } := by
  unfold createMarketSale
  simp only [nonReentrant_ok, bind_ok, require_ok, pure_ok, exists_const, callCollection_ok,
    transferEther_ok, checkedAdd_ok]
  constructor
  · rintro ⟨unlocked, _, ⟨onSale, fixed, price, _, ⟨accepts, funded, rfl⟩, _,
      ⟨s, result, found, moved, rfl⟩, count, counted, rfl⟩, rfl⟩
    exact ⟨unlocked, onSale, fixed, price, accepts, funded, s, result, count, found, moved,
      counted, rfl⟩
  · rintro ⟨unlocked, onSale, fixed, price, accepts, funded, s, result, count, found, moved,
      counted, rfl⟩
    exact ⟨unlocked, _, ⟨onSale, fixed, price, _, ⟨accepts, funded, rfl⟩, _,
      ⟨s, result, found, moved, rfl⟩, count, counted, rfl⟩, rfl⟩

/-- When an auction can be started, and what it leaves. That the item is on sale is not among the
conditions. -/
theorem createAuction_ok {sender collection : Address} {tokenId startingPrice duration : UInt256}
    {w after : World} :
    createAuction sender collection tokenId startingPrice duration w = .ok after ↔
      w.marketplace.entered = false ∧ (w.item collection tokenId).seller = sender ∧
        (w.item collection tokenId).isAuction = false ∧ ∃ auctionEndTime : UInt256,
          auctionEndTime.toNat = w.timestamp.toNat + duration.toNat ∧
          after = { w with marketplace := { w.marketplace with
            entered := false
            collectionToMarketItems := update₂ w.marketplace.collectionToMarketItems collection
              tokenId { w.item collection tokenId with
                isAuction := true, price := startingPrice, auctionEndTime } } } := by
  unfold createAuction
  simp only [nonReentrant_ok, bind_ok, require_ok, pure_ok, exists_const, checkedAdd_ok]
  constructor
  · rintro ⟨unlocked, _, ⟨seller, fixed, auctionEndTime, ends, rfl⟩, rfl⟩
    exact ⟨unlocked, seller, fixed, auctionEndTime, ends, rfl⟩
  · rintro ⟨unlocked, seller, fixed, auctionEndTime, ends, rfl⟩
    exact ⟨unlocked, _, ⟨seller, fixed, auctionEndTime, ends, rfl⟩, rfl⟩

/-- Pending returns after a bid replaced the standing one. The credit is the old
entry plus the standing bid, or nothing changes when there is none. -/
def ReturnsCredited (s : NFTMarketplace) (collection : Address) (tokenId : UInt256)
    (item : MarketItem) (returns : Address → UInt256 → Address → UInt256) : Prop :=
  if item.highestBidder = 0 then returns = s.pendingReturns
  else ∃ credit : UInt256,
    credit.toNat =
      (s.pendingReturns collection tokenId item.highestBidder).toNat + item.highestBid.toNat ∧
    returns = update₃ s.pendingReturns collection tokenId item.highestBidder credit

/-- The credit can be made when its sum fits into a word. In a run it always does, since there is
not that much ether. -/
theorem credit_exists {s : NFTMarketplace} {collection : Address} {tokenId : UInt256}
    {item : MarketItem}
    (fits : (s.pendingReturns collection tokenId item.highestBidder).toNat +
      item.highestBid.toNat < 2 ^ 256) :
    ∃ returns, s.ReturnsCredited collection tokenId item returns := by
  unfold ReturnsCredited
  by_cases vacant : item.highestBidder = 0
  · exact ⟨s.pendingReturns, by rw [if_pos vacant]⟩
  · refine ⟨update₃ s.pendingReturns collection tokenId item.highestBidder ⟨_, fits⟩, ?_⟩
    rw [if_neg vacant]
    exact ⟨⟨_, fits⟩, rfl, rfl⟩

/-- Crediting the standing bid changes what bidders are owed and nothing else. It fails only if a
claim would overflow. -/
theorem creditReturn_ok {collection : Address} {tokenId : UInt256} {item : MarketItem}
    {w after : World} :
    creditReturn collection tokenId item w = .ok after ↔
      ∃ returns, ReturnsCredited w.marketplace collection tokenId item returns ∧
        after = { w with marketplace := { w.marketplace with pendingReturns := returns } } := by
  unfold creditReturn ReturnsCredited
  by_cases vacant : item.highestBidder = 0
  · simp only [vacant, ne_eq, not_true_eq_false, if_false, if_true, pure_ok, exists_eq_left]
  · simp only [vacant, ne_eq, not_false_eq_true, if_true, if_false, bind_ok, checkedAdd_ok, pure_ok]
    constructor
    · rintro ⟨credit, exact, rfl⟩
      exact ⟨_, ⟨credit, exact, rfl⟩, rfl⟩
    · rintro ⟨_, ⟨credit, exact, rfl⟩, rfl⟩
      exact ⟨credit, exact, rfl⟩

/-- When a bid is taken, and what it leaves. The price of the item is not among the conditions. -/
theorem placeBid_ok {collection : Address} {msg : Msg} {tokenId : UInt256} {w after : World} :
    placeBid msg collection tokenId w = .ok after ↔
      w.marketplace.entered = false ∧ (w.item collection tokenId).isAuction = true ∧
        w.timestamp < (w.item collection tokenId).auctionEndTime ∧
        (w.item collection tokenId).highestBid < msg.value ∧ ∃ returns,
          ReturnsCredited w.marketplace collection tokenId (w.item collection tokenId) returns ∧
          after = { w with marketplace := { w.marketplace with
            entered := false
            pendingReturns := returns
            collectionToMarketItems := update₂ w.marketplace.collectionToMarketItems collection
              tokenId { w.item collection tokenId with
                highestBidder := msg.sender, highestBid := msg.value } } } := by
  unfold placeBid
  simp only [nonReentrant_ok, bind_ok, require_ok, pure_ok, exists_const, creditReturn_ok]
  constructor
  · rintro ⟨unlocked, _, ⟨auction, running, higher, _, ⟨returns, credited, rfl⟩, rfl⟩, rfl⟩
    exact ⟨unlocked, auction, running, higher, returns, credited, rfl⟩
  · rintro ⟨unlocked, auction, running, higher, returns, credited, rfl⟩
    exact ⟨unlocked, _, ⟨auction, running, higher, _, ⟨returns, credited, rfl⟩, rfl⟩, rfl⟩

/-- When an offer is taken, and what it leaves: the offer behind those that were there. An auction
takes no offers. -/
theorem makeOffer_ok {collection : Address} {msg : Msg} {tokenId : UInt256} {w after : World} :
    makeOffer msg collection tokenId w = .ok after ↔
      w.marketplace.entered = false ∧ (w.item collection tokenId).isOnSale = true ∧
        (w.item collection tokenId).isAuction = false ∧ 0 < msg.value ∧
        after = { w with marketplace := { w.marketplace with
          entered := false
          itemOffers := update₂ w.marketplace.itemOffers collection tokenId
            (w.marketplace.itemOffers collection tokenId ++
              [⟨msg.sender, msg.value, w.timestamp⟩]) } } := by
  unfold makeOffer
  simp only [nonReentrant_ok, bind_ok, require_ok, pure_ok, exists_const]
  constructor
  · rintro ⟨unlocked, _, ⟨onSale, fixed, positive, rfl⟩, rfl⟩
    exact ⟨unlocked, onSale, fixed, positive, rfl⟩
  · rintro ⟨unlocked, onSale, fixed, positive, rfl⟩
    exact ⟨unlocked, _, ⟨onSale, fixed, positive, rfl⟩, rfl⟩

/-- When a supply can be reported: by the collection itself, if it is registered. The number is
read back from the collection, so no other can be reported. -/
theorem updateCollectionTotalSupply_ok {sender collection : Address} {w after : World} :
    updateCollectionTotalSupply sender collection w = .ok after ↔
      (w.marketplace.collections collection).isActive = true ∧ sender = collection ∧ ∃ s,
        w.deployed collection = some s ∧
        after = { w with marketplace := { w.marketplace with
          collections := update w.marketplace.collections collection
            { w.marketplace.collections collection with totalSupply := s.totalSupply } } } := by
  unfold updateCollectionTotalSupply
  simp only [bind_ok, require_ok, exists_const]
  cases found : w.deployed collection with
  | none => simp
  | some s => simp

end NFTMarketplace

end OpenBeach
