import OpenBeach.Permanence

/-!
# The event log

Each call of the marketplace emits at most one event, and only when it succeeds. The log
tells the categories, the collections with their indexes, and what was listed and bought, so
a reader of the log alone knows them. It tells nothing of auctions, bids and refunds.
-/

namespace OpenBeach

open Function Mappings NestedCalls Sequences

/-- The events the marketplace emits. Their fields are named as in the declarations of the events. -/
inductive LogEntry where
  | collectionCreated (collectionAddress : Address) (name symbol category : Bytes)
      (owner : Address) : LogEntry
  | categoryAdded (category : Bytes) : LogEntry
  | marketItemCreated (collectionAddress : Address) (tokenId : UInt256) (seller owner : Address)
      (price : UInt256) : LogEntry
  | marketItemSold (collectionAddress : Address) (tokenId : UInt256) (seller owner : Address)
      (price : UInt256) : LogEntry
  | offerCreated (collectionAddress buyer : Address) (price : UInt256) : LogEntry
  | ownershipTransferred (previousOwner newOwner : Address) : LogEntry
deriving DecidableEq

/-- The event that a call emits. A sale names the seller it finds in the record. Views, bids,
auctions and offers emit nothing, and neither do calls of collections. -/
def emitted (receipt : ChainReceipt) : Option LogEntry :=
  match receipt.event with
  | .executed (.marketplace msg call) =>
    match call with
    | .addCategory category => some (.categoryAdded category)
    | .createCollection name symbol _ category newCollection =>
      some (.collectionCreated newCollection name symbol category msg.sender)
    | .createMarketItem collection tokenId price =>
      some (.marketItemCreated collection tokenId msg.sender 0 price)
    | .createMarketSale collection tokenId =>
      some (.marketItemSold collection tokenId (receipt.before.item collection tokenId).seller
        msg.sender msg.value)
    | .makeOffer collection _ => some (.offerCreated collection msg.sender msg.value)
    | .transferOwnership newOwner =>
      some (.ownershipTransferred receipt.before.marketplace.owner newOwner)
    | .renounceOwnership => some (.ownershipTransferred receipt.before.marketplace.owner 0)
    | .createAuction .. | .placeBid .. | .updateCollectionTotalSupply _ => none
  | _ => none

/-- What the constructor emits. The inherited constructor comes first, then one entry for every
category. -/
def constructorLog (deployer : Address) : List LogEntry :=
  .ownershipTransferred 0 deployer ::
    NFTMarketplace.constructorCategories.map LogEntry.categoryAdded

/-- What the log shows of a listed token. The rest of the record is not in any entry. -/
structure Shown where
  seller : Address
  owner : Address
  price : UInt256
  isOnSale : Bool
deriving DecidableEq

namespace LogEntry

/-- The owner that an entry announces, if it does. The last such entry names the owner. -/
def newOwner : LogEntry → Option Address
  | .ownershipTransferred _ newOwner => some newOwner
  | _ => none

/-- The category that an entry announces, if it does. The entries are in the order in which the
categories were added. -/
def category : LogEntry → Option Bytes
  | .categoryAdded category => some category
  | _ => none

/-- The collection that was created, if it is one that counts. The predicate chooses by category
and by owner, so that one reading serves every index. -/
def created (counts : Bytes → Address → Bool) : LogEntry → Option Address
  | .collectionCreated collectionAddress _ _ category owner =>
    if counts category owner = true then some collectionAddress else none
  | _ => none

/-- The token of a collection that an entry announces as listed, if it does. Every listing has an
entry, also one of a token that was listed before. -/
def listed (collection : Address) : LogEntry → Option UInt256
  | .marketItemCreated collectionAddress tokenId _ _ _ =>
    if collectionAddress = collection then some tokenId else none
  | _ => none

/-- What an account bought. An entry of a sale names the buyer as the owner. -/
def bought (user : Address) : LogEntry → Option (Address × UInt256)
  | .marketItemSold collectionAddress tokenId _ owner _ =>
    if owner = user then some (collectionAddress, tokenId) else none
  | _ => none

/-- What an entry shows of a token, if it is about that token. The last such entry tells what the
record says. -/
def shown (collection : Address) (tokenId : UInt256) : LogEntry → Option Shown
  | .marketItemCreated collectionAddress id seller owner price =>
    if collectionAddress = collection ∧ id = tokenId then some ⟨seller, owner, price, true⟩ else none
  | .marketItemSold collectionAddress id seller owner price =>
    if collectionAddress = collection ∧ id = tokenId then some ⟨seller, owner, price, false⟩ else none
  | _ => none

end LogEntry

/-- The record of a token says what the log says, up to the price while it is auctioned. -/
def MarketItem.Shows (item : MarketItem) : Option Shown → Prop
  | none => item = .unset
  | some shown => item.seller = shown.seller ∧ item.owner = shown.owner ∧
      item.isOnSale = shown.isOnSale ∧ (item.isAuction = false → item.price = shown.price)

/-- What the marketplace stores besides trades and records. The parts are those that entries on
the owner, on categories and on collections tell. -/
structure Directory where
  owner : Address
  categories : List Bytes
  collectionAddresses : List Address
  categoryToCollections : Bytes → List Address
  userCreatedCollections : Address → List Address

/-- The lists and indexes in the storage of the marketplace. Nothing is computed; the lists are
stored as they are. -/
def NFTMarketplace.directory (s : NFTMarketplace) : Directory where
  owner := s.owner
  categories := s.categories
  collectionAddresses := s.collectionAddresses
  categoryToCollections := s.categoryToCollections
  userCreatedCollections := s.userCreatedCollections

/-- What the log tells of the owner, the categories and the collections. Each list is read off the
entries in their order, and the owner off the last one. -/
structure RegistryLogged (log : List LogEntry) (s : NFTMarketplace) : Prop where
  owner : latest LogEntry.newOwner log.reverse = some s.owner
  categories : s.categories = log.filterMap LogEntry.category
  collectionAddresses : s.collectionAddresses = log.filterMap (LogEntry.created fun _ _ => true)
  categoryToCollections : ∀ category, s.categoryToCollections category =
    log.filterMap (LogEntry.created fun named _ => named = category)
  userCreatedCollections : ∀ user, s.userCreatedCollections user =
    log.filterMap (LogEntry.created fun _ owner => owner = user)
  records : ∀ collection name symbol category owner,
    .collectionCreated collection name symbol category owner ∈ log →
      (s.collections collection).name = name ∧ (s.collections collection).symbol = symbol ∧
        (s.collections collection).category = category ∧ (s.collections collection).owner = owner

/-- What the log tells of listings and sales. Records are told up to the auctions, which emit
nothing. -/
structure TradesLogged (log : List LogEntry) (s : NFTMarketplace) : Prop where
  collectionTokenIds : ∀ collection,
    s.collectionTokenIds collection = log.filterMap (LogEntry.listed collection)
  userPurchases : ∀ user collection tokenId, s.userPurchases user collection tokenId = true ↔
    (collection, tokenId) ∈ log.filterMap (LogEntry.bought user)
  userPurchaseCount : ∀ user,
    (s.userPurchaseCount user).toNat = (log.filterMap (LogEntry.bought user)).length
  items : ∀ collection tokenId, (s.collectionToMarketItems collection tokenId).Shows
    (latest (LogEntry.shown collection tokenId) log.reverse)

section Steps

variable {this : Address} {w after : World} {event : ChainEvent} {log : List LogEntry}

/-- What one more entry adds to a list that the log tells. An entry tells of at most one member. -/
theorem filterMap_append {δ : Type} (tells : LogEntry → Option δ) (entry : Option LogEntry) :
    (log ++ entry.toList).filterMap tells = log.filterMap tells ++ (entry.bind tells).toList := by
  rw [List.filterMap_append]
  cases entry with
  | none => rfl
  | some entry => cases told : tells entry <;> simp [told]

/-- What one more entry does to what the log tells last. It is the new entry that tells it, if it
tells anything. -/
theorem latest_append {δ : Type} (tells : LogEntry → Option δ) (entry : Option LogEntry) :
    latest tells (log ++ entry.toList).reverse =
      (entry.bind tells).or (latest tells log.reverse) := by
  cases entry with
  | none => simp
  | some entry => simp [latest_cons]

/-- One more entry on listings and sales. What the storage gains has to be what the entry tells. -/
theorem TradesLogged.append {s result : NFTMarketplace} (logged : TradesLogged log s)
    (entry : Option LogEntry)
    (tokenIds : ∀ collection, result.collectionTokenIds collection =
      s.collectionTokenIds collection ++ (entry.bind (LogEntry.listed collection)).toList)
    (purchases : ∀ user collection tokenId, result.userPurchases user collection tokenId = true ↔
      s.userPurchases user collection tokenId = true ∨
        entry.bind (LogEntry.bought user) = some (collection, tokenId))
    (counts : ∀ user, (result.userPurchaseCount user).toNat =
      (s.userPurchaseCount user).toNat + (entry.bind (LogEntry.bought user)).toList.length)
    (items : ∀ collection tokenId shown,
      (s.collectionToMarketItems collection tokenId).Shows shown →
      (result.collectionToMarketItems collection tokenId).Shows
        ((entry.bind (LogEntry.shown collection tokenId)).or shown)) :
    TradesLogged (log ++ entry.toList) result where
  collectionTokenIds collection := by
    rw [tokenIds, filterMap_append, logged.collectionTokenIds]
  userPurchases user collection tokenId := by
    rw [purchases, filterMap_append, List.mem_append, logged.userPurchases, Option.mem_toList]
  userPurchaseCount user := by
    rw [counts, filterMap_append, List.length_append, logged.userPurchaseCount]
  items collection tokenId := by
    rw [latest_append]
    exact items collection tokenId _ (logged.items collection tokenId)

/-- Events that trade nothing tell nothing of trades. Entries on listings and sales are emitted by
those calls alone. -/
theorem emitted_untraded (untraded : trade event = none) :
    (∀ collection, (emitted ⟨w, event⟩).bind (LogEntry.listed collection) = none) ∧
      (∀ user, (emitted ⟨w, event⟩).bind (LogEntry.bought user) = none) ∧
      ∀ collection tokenId, (emitted ⟨w, event⟩).bind (LogEntry.shown collection tokenId) = none := by
  cases event with
  | resumed => exact ⟨fun _ => rfl, fun _ => rfl, fun _ _ => rfl⟩
  | executed action =>
    cases action with
    | marketplace msg call =>
      cases call with
      | createMarketItem | createMarketSale | createAuction | placeBid | makeOffer => cases untraded
      | addCategory | createCollection | updateCollectionTotalSupply | transferOwnership
      | renounceOwnership => exact ⟨fun _ => rfl, fun _ => rfl, fun _ _ => rfl⟩
    | collection | outsideCall | moveEther | setAccount | nextBlock =>
      exact ⟨fun _ => rfl, fun _ => rfl, fun _ _ => rfl⟩

/-- A token whose record changes without an event: it was listed, and it is auctioned now. From
then on its price is not told. -/
theorem MarketItem.Shows.auctioned {item result : MarketItem} {shown : Option Shown}
    (told : item.Shows shown) (listed : item ≠ .unset) (seller : result.seller = item.seller)
    (owner : result.owner = item.owner) (onSale : result.isOnSale = item.isOnSale)
    (auction : result.isAuction = true) : result.Shows shown := by
  cases shown with
  | none => exact absurd told listed
  | some shown =>
    obtain ⟨sameSeller, sameOwner, sameSale, _⟩ := told
    refine ⟨seller.trans sameSeller, owner.trans sameOwner, onSale.trans sameSale, ?_⟩
    intro fixed
    rw [auction] at fixed
    cases fixed

/-- The records after one of them changed. The entry must be about that record, and be silent on
the others. -/
theorem shows_update {collection : Address} {tokenId : UInt256} {result : MarketItem}
    {items : Address → UInt256 → MarketItem} {entry : Option LogEntry}
    (apart : ∀ tested testedId, ¬ (tested = collection ∧ testedId = tokenId) →
      entry.bind (LogEntry.shown tested testedId) = none)
    (here : ∀ shown, (items collection tokenId).Shows shown →
      result.Shows ((entry.bind (LogEntry.shown collection tokenId)).or shown))
    (tested : Address) (testedId : UInt256) (shown : Option Shown)
    (told : (items tested testedId).Shows shown) :
    (update₂ items collection tokenId result tested testedId).Shows
      ((entry.bind (LogEntry.shown tested testedId)).or shown) := by
  rw [update₂_apply]
  by_cases same : tested = collection ∧ testedId = tokenId
  · obtain ⟨rfl, rfl⟩ := same
    rw [if_pos ⟨rfl, rfl⟩]
    exact here shown told
  · rw [if_neg same, apart tested testedId same]
    exact told

/-- The step lemma for listings and sales. The cases are those of the trades; only listings and
sales emit an entry. -/
theorem Change.tradesLogged (change : Change this w event after)
    (logged : TradesLogged log w.marketplace) :
    TradesLogged (log ++ (emitted ⟨w, event⟩).toList) after.marketplace := by
  have quietly : ∀ result : NFTMarketplace, trade event = none →
      result.collectionTokenIds = w.marketplace.collectionTokenIds →
      result.userPurchases = w.marketplace.userPurchases →
      result.userPurchaseCount = w.marketplace.userPurchaseCount →
      result.collectionToMarketItems = w.marketplace.collectionToMarketItems →
      TradesLogged (log ++ (emitted ⟨w, event⟩).toList) result := by
    intro result untraded tokenIds purchases counts items
    obtain ⟨listed, bought, shown⟩ := emitted_untraded (w := w) untraded
    refine logged.append _ ?_ ?_ ?_ ?_
    · simp [tokenIds, listed]
    · simp [purchases, bought]
    · simp [counts, bought]
    · intro collection tokenId told shows
      rw [items, shown]
      exact shows
  cases change with
  | registered => exact quietly _ rfl rfl rfl rfl rfl
  | tokens _ collection s result collections quiet => exact quietly _ quiet rfl rfl rfl rfl
  | quiet event owner categories categoryExists accounts balance timestamp quiet =>
    exact quietly _ quiet rfl rfl rfl rfl
  | listed msg collection tokenId price s =>
    refine logged.append _ ?_ ?_ ?_ (shows_update ?_ ?_)
    · intro tested
      by_cases same : tested = collection
      · simp [NFTMarketplace.listing, emitted, LogEntry.listed, same]
      · simp [NFTMarketplace.listing, emitted, LogEntry.listed, same, Ne.symm same]
    · simp [NFTMarketplace.listing, emitted, LogEntry.bought]
    · simp [NFTMarketplace.listing, emitted, LogEntry.bought]
    · intro tested testedId different
      have apart : ¬ (collection = tested ∧ tokenId = testedId) :=
        fun same => different ⟨same.1.symm, same.2.symm⟩
      simp [emitted, LogEntry.shown, apart]
    · intro shown _
      simp [emitted, LogEntry.shown, MarketItem.Shows, NFTMarketplace.listedItem]
  | sold msg collection tokenId s result count outside funded unlocked onSale fixed price accepts
      found moved counted =>
    refine logged.append _ ?_ ?_ ?_ (shows_update ?_ ?_)
    · simp [NFTMarketplace.selling, emitted, LogEntry.listed]
    · intro user tested testedId
      simp only [NFTMarketplace.selling, update₃_apply, emitted, Option.bind_some, LogEntry.bought]
      by_cases same : user = msg.sender
      · subst same
        by_cases here : tested = collection ∧ testedId = tokenId
        · obtain ⟨rfl, rfl⟩ := here
          simp
        · have apart : ¬ (collection = tested ∧ tokenId = testedId) :=
            fun equal => here ⟨equal.1.symm, equal.2.symm⟩
          simp [here, apart]
      · simp [same, Ne.symm same]
    · intro user
      by_cases same : user = msg.sender
      · subst same
        simp [NFTMarketplace.selling, emitted, LogEntry.bought, counted]
      · simp [NFTMarketplace.selling, emitted, LogEntry.bought, same, Ne.symm same]
    · intro tested testedId different
      have apart : ¬ (collection = tested ∧ tokenId = testedId) :=
        fun same => different ⟨same.1.symm, same.2.symm⟩
      simp [emitted, LogEntry.shown, apart]
    · intro shown _
      simp [emitted, LogEntry.shown, MarketItem.Shows, price]
  | auctioned msg collection tokenId startingPrice duration auctionEndTime outside unlocked seller =>
    obtain ⟨nonzero, _, _⟩ := outside_iff.mp outside
    refine logged.append none (by simp) (by simp) (by simp) (shows_update (fun _ _ _ => rfl) ?_)
    intro shown told
    refine told.auctioned ?_ rfl rfl rfl rfl
    intro unlisted
    have noSeller : (w.item collection tokenId).seller = 0 := congrArg MarketItem.seller unlisted
    exact nonzero (seller.symm.trans noSeller)
  | bid msg collection tokenId returns outside funded unlocked auction =>
    refine logged.append none (by simp) (by simp) (by simp) (shows_update (fun _ _ _ => rfl) ?_)
    intro shown told
    refine told.auctioned ?_ rfl rfl rfl auction
    intro unlisted
    have fixed : (w.item collection tokenId).isAuction = false :=
      congrArg MarketItem.isAuction unlisted
    rw [auction] at fixed
    cases fixed
  | offered msg collection tokenId =>
    refine logged.append _ ?_ ?_ ?_ ?_
    · simp [emitted, LogEntry.listed]
    · simp [emitted, LogEntry.bought]
    · simp [emitted, LogEntry.bought]
    · intro tested testedId shown told
      exact told

/-- One more entry on the owner, the categories and the collections. Records of collections
that were told before are kept. -/
theorem RegistryLogged.append (logged : RegistryLogged log w.marketplace) (registry : Registry this w)
    (keeps : w.marketplace.Keeps after.marketplace) (entry : Option LogEntry)
    (owner : after.marketplace.owner = (entry.bind LogEntry.newOwner).getD w.marketplace.owner)
    (categories : after.marketplace.categories =
      w.marketplace.categories ++ (entry.bind LogEntry.category).toList)
    (addresses : after.marketplace.collectionAddresses = w.marketplace.collectionAddresses ++
      (entry.bind (LogEntry.created fun _ _ => true)).toList)
    (byCategory : ∀ category, after.marketplace.categoryToCollections category =
      w.marketplace.categoryToCollections category ++
        (entry.bind (LogEntry.created fun named _ => named = category)).toList)
    (byOwner : ∀ user, after.marketplace.userCreatedCollections user =
      w.marketplace.userCreatedCollections user ++
        (entry.bind (LogEntry.created fun _ owner => owner = user)).toList)
    (record : ∀ collection name symbol category owner,
      entry = some (.collectionCreated collection name symbol category owner) →
        ∃ baseURI createdAt, after.marketplace.collections collection =
          NFTMarketplace.newRecord owner name symbol baseURI category collection createdAt) :
    RegistryLogged (log ++ entry.toList) after.marketplace where
  owner := by
    rw [latest_append, logged.owner, owner]
    cases entry.bind LogEntry.newOwner <;> rfl
  categories := by rw [filterMap_append, categories, logged.categories]
  collectionAddresses := by rw [filterMap_append, addresses, logged.collectionAddresses]
  categoryToCollections category := by
    rw [filterMap_append, byCategory, logged.categoryToCollections]
  userCreatedCollections user := by rw [filterMap_append, byOwner, logged.userCreatedCollections]
  records collection name symbol category owner member := by
    rcases List.mem_append.mp member with old | new
    · have registered : collection ∈ w.marketplace.collectionAddresses := by
        rw [logged.collectionAddresses]
        exact List.mem_filterMap.mpr ⟨_, old, rfl⟩
      have active := (registry.active collection).trans ((registry.registered collection).mp registered)
      rw [keeps.records collection active]
      exact logged.records collection name symbol category owner old
    · obtain ⟨baseURI, createdAt, same⟩ :=
        record collection name symbol category owner (Option.mem_toList.mp new)
      rw [same]
      exact ⟨rfl, rfl, rfl, rfl⟩

/-- Events that concern neither the owner nor the categories nor a new collection. They may change
records, which the log tells separately. -/
theorem RegistryLogged.of_frame (logged : RegistryLogged log w.marketplace)
    (registry : Registry this w) (keeps : w.marketplace.Keeps after.marketplace)
    {entry : Option LogEntry} (noOwner : entry.bind LogEntry.newOwner = none)
    (noCategory : entry.bind LogEntry.category = none)
    (noCollection : ∀ counts, entry.bind (LogEntry.created counts) = none)
    (same : after.marketplace.directory = w.marketplace.directory) :
    RegistryLogged (log ++ entry.toList) after.marketplace := by
  have owner : after.marketplace.owner = w.marketplace.owner := congrArg Directory.owner same
  have categories : after.marketplace.categories = w.marketplace.categories :=
    congrArg Directory.categories same
  have addresses : after.marketplace.collectionAddresses = w.marketplace.collectionAddresses :=
    congrArg Directory.collectionAddresses same
  have byCategory : after.marketplace.categoryToCollections = w.marketplace.categoryToCollections :=
    congrArg Directory.categoryToCollections same
  have byOwner : after.marketplace.userCreatedCollections = w.marketplace.userCreatedCollections :=
    congrArg Directory.userCreatedCollections same
  refine logged.append registry keeps entry ?_ ?_ ?_ ?_ ?_ ?_
  · rw [noOwner, owner, Option.getD_none]
  · rw [noCategory, categories, Option.toList_none, List.append_nil]
  · rw [noCollection, addresses, Option.toList_none, List.append_nil]
  · intro category
    rw [noCollection, byCategory, Option.toList_none, List.append_nil]
  · intro user
    rw [noCollection, byOwner, Option.toList_none, List.append_nil]
  · rintro collection name symbol category author rfl
    exact absurd (noCollection fun _ _ => true) (by simp [LogEntry.created])

/-- Calls of collections concern the records of collections at most. These do not touch the lists
and indexes. -/
theorem RegistryLogged.of_only (logged : RegistryLogged log w.marketplace)
    (registry : Registry this w) (keeps : w.marketplace.Keeps after.marketplace)
    (only : CollectionsOnly w after) : RegistryLogged log after.marketplace := by
  have same : after.marketplace.directory = w.marketplace.directory := by
    unfold CollectionsOnly at only
    rw [only]
    rfl
  have frame : RegistryLogged (log ++ (none : Option LogEntry).toList) after.marketplace :=
    logged.of_frame registry keeps rfl rfl (fun _ => rfl) same
  simpa using frame

/-- The step lemma for calls to the marketplace. The cases are those of the calls, and each that
emits writes what its entry tells. -/
theorem marketplace_logged {msg : Msg} {call : NFTMarketplace.Call} (registry : Registry this w)
    (keeps : w.marketplace.Keeps after.marketplace) (logged : RegistryLogged log w.marketplace)
    (completed : NFTMarketplace.call this msg call w = .ok after) :
    RegistryLogged (log ++ (emitted ⟨w, .executed (.marketplace msg call)⟩).toList)
      after.marketplace := by
  cases call with
  | addCategory category =>
    obtain ⟨_, completed⟩ := NFTMarketplace.nonPayable_ok.mp completed
    obtain ⟨_, added, rfl⟩ := NFTMarketplace.onStorage_ok.mp completed
    obtain ⟨_, _, rfl⟩ := NFTMarketplace.addCategory_ok.mp added
    refine logged.append registry keeps _ rfl rfl ?_ ?_ ?_ (by simp [emitted])
    all_goals simp [emitted, LogEntry.created]
  | createCollection name symbol baseURI category newCollection =>
    obtain ⟨_, completed⟩ := NFTMarketplace.nonPayable_ok.mp completed
    obtain ⟨_, _, _, _, rfl⟩ := NFTMarketplace.createCollection_ok.mp completed
    refine logged.append registry keeps _ rfl ?_ rfl ?_ ?_ ?_
    · simp [emitted, LogEntry.category, NFTMarketplace.registering]
    · intro tested
      by_cases same : category = tested
      · subst same
        simp [emitted, LogEntry.created, NFTMarketplace.registering, NFTMarketplace.newRecord]
      · simp [emitted, LogEntry.created, NFTMarketplace.registering, NFTMarketplace.newRecord, same,
          Ne.symm same]
    · intro user
      by_cases same : msg.sender = user
      · subst same
        simp [emitted, LogEntry.created, NFTMarketplace.registering, NFTMarketplace.newRecord]
      · simp [emitted, LogEntry.created, NFTMarketplace.registering, NFTMarketplace.newRecord, same,
          Ne.symm same]
    · rintro _ _ _ _ _ ⟨⟩
      exact ⟨baseURI, w.timestamp, update_self _ _ _⟩
  | transferOwnership newOwner =>
    obtain ⟨_, completed⟩ := NFTMarketplace.nonPayable_ok.mp completed
    obtain ⟨_, transferred, rfl⟩ := NFTMarketplace.onStorage_ok.mp completed
    obtain ⟨_, _, rfl⟩ := NFTMarketplace.transferOwnership_ok.mp transferred
    refine logged.append registry keeps _ rfl ?_ ?_ ?_ ?_ (by simp [emitted])
    all_goals simp [emitted, LogEntry.created, LogEntry.category]
  | renounceOwnership =>
    obtain ⟨_, completed⟩ := NFTMarketplace.nonPayable_ok.mp completed
    obtain ⟨_, renounced, rfl⟩ := NFTMarketplace.onStorage_ok.mp completed
    obtain ⟨_, rfl⟩ := NFTMarketplace.renounceOwnership_ok.mp renounced
    refine logged.append registry keeps _ rfl ?_ ?_ ?_ ?_ (by simp [emitted])
    all_goals simp [emitted, LogEntry.created, LogEntry.category]
  | createMarketItem collection tokenId price =>
    obtain ⟨_, completed⟩ := NFTMarketplace.payable_ok.mp completed
    obtain ⟨_, _, _, _, _, _, _, _, _, rfl⟩ := NFTMarketplace.createMarketItem_ok.mp completed
    exact logged.of_frame registry keeps rfl rfl (fun _ => rfl) rfl
  | createMarketSale collection tokenId =>
    obtain ⟨_, completed⟩ := NFTMarketplace.payable_ok.mp completed
    obtain ⟨_, _, _, _, _, _, _, _, _, _, _, _, rfl⟩ :=
      NFTMarketplace.createMarketSale_ok.mp completed
    exact logged.of_frame registry keeps rfl rfl (fun _ => rfl) rfl
  | createAuction collection tokenId startingPrice duration =>
    obtain ⟨_, completed⟩ := NFTMarketplace.nonPayable_ok.mp completed
    obtain ⟨_, _, _, _, _, rfl⟩ := NFTMarketplace.createAuction_ok.mp completed
    exact logged.of_frame registry keeps rfl rfl (fun _ => rfl) rfl
  | placeBid collection tokenId =>
    obtain ⟨_, completed⟩ := NFTMarketplace.payable_ok.mp completed
    obtain ⟨_, _, _, _, _, _, rfl⟩ := NFTMarketplace.placeBid_ok.mp completed
    exact logged.of_frame registry keeps rfl rfl (fun _ => rfl) rfl
  | makeOffer collection tokenId =>
    obtain ⟨_, completed⟩ := NFTMarketplace.payable_ok.mp completed
    obtain ⟨_, _, _, _, rfl⟩ := NFTMarketplace.makeOffer_ok.mp completed
    exact logged.of_frame registry keeps rfl rfl (fun _ => rfl) rfl
  | updateCollectionTotalSupply collection =>
    obtain ⟨_, completed⟩ := NFTMarketplace.nonPayable_ok.mp completed
    obtain ⟨_, _, _, _, rfl⟩ := NFTMarketplace.updateCollectionTotalSupply_ok.mp completed
    exact logged.of_frame registry keeps rfl rfl (fun _ => rfl) rfl

/-- The step lemma for the owner, the categories and the collections. A call that reverts has no
effect, and its entries are dropped with it. -/
theorem effective_logged (nonzero : this ≠ 0) (effective : Effective (chain this) event w after)
    (registry : Registry this w) (logged : RegistryLogged log w.marketplace) :
    RegistryLogged (log ++ (emitted ⟨w, event⟩).toList) after.marketplace := by
  have keeps := (effective_keeps nonzero effective registry).marketplace
  cases event with
  | resumed pending =>
    have only := logged.of_only registry keeps (resume_only effective)
    simpa [emitted] using only
  | executed action =>
    obtain ⟨continuation, ran⟩ := effective
    cases action with
    | marketplace msg call =>
      obtain ⟨_, completed, _⟩ := execute_marketplace_ok.mp ran
      exact marketplace_logged registry keeps logged completed
    | collection sender target call =>
      simp only [chain, execute, bind_ok, ensure_ok, exists_const] at ran
      have only := logged.of_only registry keeps (collection_only ran.2)
      simpa [emitted] using only
    | outsideCall =>
      obtain ⟨rfl, _⟩ : w = after ∧ some Pending.outsideCall = continuation := by
        simpa [chain, execute] using ran
      simpa [emitted] using logged
    | moveEther source target amount =>
      simp only [chain, execute, bind_ok, ensure_ok, exists_const, completed_ok, moveEther_ok] at ran
      obtain ⟨_, ⟨_, rfl⟩, _⟩ := ran
      simpa [emitted] using logged
    | setAccount address account =>
      obtain ⟨rfl, _⟩ : { w with accounts := update w.accounts address account } = after ∧
          none = continuation := by
        simpa [chain, execute] using ran
      simpa [emitted] using logged
    | nextBlock timestamp =>
      simp only [chain, execute, bind_ok, ensure_ok, exists_const, pure_ok, Prod.mk.injEq] at ran
      obtain ⟨_, rfl, _⟩ := ran
      simpa [emitted] using logged

end Steps

namespace Deployment

variable (deployment : Deployment) (moves : List (Move Action))

/-- What the constructor emits tells what it stores. The first entry names the deployer as the
owner, as the storage does. -/
theorem constructor_logged :
    RegistryLogged (constructorLog deployment.deployer) deployment.storage ∧
      TradesLogged (constructorLog deployment.deployer) deployment.storage := by
  have storage := NFTMarketplace.constructor_frame deployment.constructed
  have added : deployment.storage.categories = NFTMarketplace.constructorCategories :=
    addCategories_appended _ _ _ _ (bind_ok.mp deployment.constructed).choose_spec.2
  rw [storage]
  constructor
  · constructor
    · rfl
    · exact added.trans rfl
    · rfl
    · exact fun _ => rfl
    · exact fun _ => rfl
    · intro collection name symbol category owner told
      simp [constructorLog] at told
  · constructor
    · exact fun _ => rfl
    · simp [constructorLog, NFTMarketplace.initialStorage, LogEntry.bought]
    · exact fun _ => rfl
    · exact fun _ _ => rfl

/-- The marketplace's log after a run: what its constructor emitted, then what the calls
that succeeded did. -/
def log : List LogEntry :=
  constructorLog deployment.deployer ++ chronicle emitted (deployment.history moves)

/-- The log is complete. It tells who owns the marketplace, its categories and collections with
their indexes and records, the tokens listed in each collection, every purchase, and of each
listed token its seller, its buyer and whether it is on sale; the price too, unless the token is
auctioned. An auction emits no event, so its price is the one part of a listing that the log does
not know. Everything is read by folding over the entries, without a look at the storage. -/
theorem log_complete :
    RegistryLogged (deployment.log moves) (deployment.world moves).marketplace ∧
      TradesLogged (deployment.log moves) (deployment.world moves).marketplace := by
  have invariant := (deployment.trace moves).history_invariant
    (fun history w => Registry deployment.address w ∧
      RegistryLogged (constructorLog deployment.deployer ++ chronicle emitted history) w.marketplace ∧
      TradesLogged (constructorLog deployment.deployer ++ chronicle emitted history) w.marketplace)
    (by simpa [chronicle] using ⟨deployment.genesis_registry, deployment.constructor_logged⟩)
    (by
      rintro event history w after effective ⟨registry, collections, trades⟩
      have change := deployment.change effective
      rw [chronicle_cons, ← List.append_assoc]
      exact ⟨change.registry registry,
        effective_logged deployment.address_ne_zero effective registry collections,
        change.tradesLogged trades⟩)
  exact invariant.2

end Deployment

end OpenBeach
