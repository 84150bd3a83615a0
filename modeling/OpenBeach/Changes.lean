import OpenBeach.MarketEffects

/-!
# What one event does to the world

Every successful event of a run is one of eight changes. Six come from the calls
that register collections and trade tokens; all other calls to a collection share
one, and everything else leaves items, ledgers and tokens alone. Invariants are
proved by cases on this classification, never by unfolding calls again.
-/

namespace OpenBeach

open Function Mappings NestedCalls

/-- The events of runs of the two contracts. A call that an outside account makes, or the rest of
one that was interrupted. -/
abbrev ChainEvent := Event Action Pending

/-- The receipts their histories consist of. Each has the world before its event. -/
abbrev ChainReceipt := Receipt World Action Pending

/-- A successful marketplace call on one token, without the token. What it carries is what the
call said, not what the marketplace made of it. -/
inductive TradeEvent where
  | listing (seller : Address) (price fee : UInt256) : TradeEvent
  | sale (buyer : Address) (payment : UInt256) : TradeEvent
  | auction (seller : Address) (startingPrice duration : UInt256) : TradeEvent
  | bid (bidder : Address) (value : UInt256) : TradeEvent
  | offer (buyer : Address) (value : UInt256) : TradeEvent
deriving DecidableEq

/-- The token an event trades, and how; the other events trade nothing. Minting, transfers and
calls about collections are among those that trade nothing. -/
def trade : ChainEvent → Option ((Address × UInt256) × TradeEvent)
  | .executed (.marketplace msg (.createMarketItem collection tokenId price)) =>
    some ((collection, tokenId), .listing msg.sender price msg.value)
  | .executed (.marketplace msg (.createMarketSale collection tokenId)) =>
    some ((collection, tokenId), .sale msg.sender msg.value)
  | .executed (.marketplace msg (.createAuction collection tokenId startingPrice duration)) =>
    some ((collection, tokenId), .auction msg.sender startingPrice duration)
  | .executed (.marketplace msg (.placeBid collection tokenId)) =>
    some ((collection, tokenId), .bid msg.sender msg.value)
  | .executed (.marketplace msg (.makeOffer collection tokenId)) =>
    some ((collection, tokenId), .offer msg.sender msg.value)
  | _ => none

/-- Ether that reaches the marketplace outside its functions. The marketplace cannot refuse it,
and does not notice it. -/
def forcedEther (this : Address) : ChainEvent → Nat
  | .executed (.moveEther _ target amount) => if target = this then amount else 0
  | _ => 0

/-- The change an event makes, with the facts its call checked. A mint or a supply
report may refresh the recorded supply of a collection, and nothing else of a record. -/
inductive Change (this : Address) (w : World) : ChainEvent → World → Prop where
  | registered (msg : Msg) (name symbol baseURI category : Bytes) (newCollection : Address)
      (storage : NFTCollection)
      (outside : w.isOutside this msg.sender = true)
      (known : w.marketplace.categoryExists category = true)
      (fresh : w.isOutside this newCollection = true)
      (created : NFTCollection.constructor name symbol baseURI this category msg.sender =
        .ok storage) :
      Change this w
        (.executed (.marketplace msg (.createCollection name symbol baseURI category newCollection)))
        { w with
          marketplace := w.marketplace.registering msg.sender (NFTMarketplace.newRecord msg.sender
            name symbol baseURI category newCollection w.timestamp)
          deployed := update w.deployed newCollection (some storage) }
  | listed (msg : Msg) (collection : Address) (tokenId price : UInt256) (s result : NFTCollection)
      (outside : w.isOutside this msg.sender = true)
      (funded : msg.value.toNat ≤ w.balance msg.sender)
      (unlocked : w.marketplace.entered = false)
      (active : (w.marketplace.collections collection).isActive = true) (positive : 0 < price)
      (fee : msg.value = w.marketplace.listingFee) (found : w.deployed collection = some s)
      (moved : NFTCollection.transferFrom this msg.sender this tokenId s = .ok result) :
      Change this w (.executed (.marketplace msg (.createMarketItem collection tokenId price)))
        { w with
          marketplace := w.marketplace.listing collection tokenId
            (NFTMarketplace.listedItem collection tokenId msg.sender price (s.tokenURIs tokenId))
          deployed := update w.deployed collection (some result)
          balance := movedBalance w.balance msg.sender this msg.value.toNat }
  | sold (msg : Msg) (collection : Address) (tokenId : UInt256) (s result : NFTCollection)
      (count : UInt256)
      (outside : w.isOutside this msg.sender = true)
      (funded : msg.value.toNat ≤ w.balance msg.sender)
      (unlocked : w.marketplace.entered = false)
      (onSale : (w.item collection tokenId).isOnSale = true)
      (fixed : (w.item collection tokenId).isAuction = false)
      (price : msg.value = (w.item collection tokenId).price)
      (accepts : w.acceptsEther this (w.item collection tokenId).seller = true)
      (found : w.deployed collection = some s)
      (moved : NFTCollection.transferFrom this this msg.sender tokenId s = .ok result)
      (counted : count.toNat = (w.marketplace.userPurchaseCount msg.sender).toNat + 1) :
      Change this w (.executed (.marketplace msg (.createMarketSale collection tokenId)))
        { w with
          marketplace := w.marketplace.selling collection tokenId (w.item collection tokenId)
            msg.sender count
          deployed := update w.deployed collection (some result)
          balance := movedBalance (movedBalance w.balance msg.sender this msg.value.toNat) this
            (w.item collection tokenId).seller msg.value.toNat }
  | auctioned (msg : Msg) (collection : Address) (tokenId startingPrice duration : UInt256)
      (auctionEndTime : UInt256)
      (outside : w.isOutside this msg.sender = true)
      (unlocked : w.marketplace.entered = false)
      (seller : (w.item collection tokenId).seller = msg.sender)
      (fixed : (w.item collection tokenId).isAuction = false)
      (ends : auctionEndTime.toNat = w.timestamp.toNat + duration.toNat) :
      Change this w
        (.executed (.marketplace msg (.createAuction collection tokenId startingPrice duration)))
        { w with marketplace := { w.marketplace with
            entered := false
            collectionToMarketItems := update₂ w.marketplace.collectionToMarketItems collection
              tokenId { w.item collection tokenId with
                isAuction := true, price := startingPrice, auctionEndTime } } }
  | bid (msg : Msg) (collection : Address) (tokenId : UInt256)
      (returns : Address → UInt256 → Address → UInt256)
      (outside : w.isOutside this msg.sender = true)
      (funded : msg.value.toNat ≤ w.balance msg.sender)
      (unlocked : w.marketplace.entered = false)
      (auction : (w.item collection tokenId).isAuction = true)
      (running : w.timestamp < (w.item collection tokenId).auctionEndTime)
      (higher : (w.item collection tokenId).highestBid < msg.value)
      (credited : w.marketplace.ReturnsCredited collection tokenId (w.item collection tokenId)
        returns) :
      Change this w (.executed (.marketplace msg (.placeBid collection tokenId)))
        { w with
          marketplace := { w.marketplace with
            entered := false
            pendingReturns := returns
            collectionToMarketItems := update₂ w.marketplace.collectionToMarketItems collection
              tokenId { w.item collection tokenId with
                highestBidder := msg.sender, highestBid := msg.value } }
          balance := movedBalance w.balance msg.sender this msg.value.toNat }
  | offered (msg : Msg) (collection : Address) (tokenId : UInt256)
      (outside : w.isOutside this msg.sender = true)
      (funded : msg.value.toNat ≤ w.balance msg.sender)
      (unlocked : w.marketplace.entered = false)
      (onSale : (w.item collection tokenId).isOnSale = true)
      (fixed : (w.item collection tokenId).isAuction = false) (positive : 0 < msg.value) :
      Change this w (.executed (.marketplace msg (.makeOffer collection tokenId)))
        { w with
          marketplace := { w.marketplace with
            entered := false
            itemOffers := update₂ w.marketplace.itemOffers collection tokenId
              (w.marketplace.itemOffers collection tokenId ++
                [⟨msg.sender, msg.value, w.timestamp⟩]) }
          balance := movedBalance w.balance msg.sender this msg.value.toNat }
  | tokens (event : ChainEvent) (collection : Address) (s result : NFTCollection)
      (collections : Address → Collection) (quiet : trade event = none)
      (unforced : forcedEther this event = 0)
      (found : w.deployed collection = some s) (step : s.TokenStep this result)
      (supply : ∀ address, collections address = { w.marketplace.collections address with
        totalSupply := (collections address).totalSupply }) :
      Change this w event
        { w with
          marketplace := { w.marketplace with collections }
          deployed := update w.deployed collection (some result) }
  | quiet (event : ChainEvent) (owner : Address) (categories : List Bytes)
      (categoryExists : Bytes → Bool) (accounts : Address → Account) (balance : Address → Nat)
      (timestamp : UInt256) (quiet : trade event = none)
      (conserved : total balance = total w.balance)
      (received : balance this = w.balance this + forcedEther this event)
      (later : w.timestamp ≤ timestamp) :
      Change this w event
        { w with
          marketplace := { w.marketplace with owner, categories, categoryExists }
          accounts, balance, timestamp }

section Classification

variable {this : Address} {w after : World}

/-- An outside account is none of the contracts, nor zero. This is what a caller of either
contract is, a minting owner included. -/
theorem outside_iff {account : Address} :
    w.isOutside this account = true ↔
      account ≠ 0 ∧ account ≠ this ∧ w.deployed account = none := by
  simp [World.isOutside, and_assoc]

/-- The marketplace does not accept plain ether, so it pays others only. So what it pays out does
not come back to it at once. -/
theorem ne_of_accepts {target : Address} (accepts : w.acceptsEther this target = true) :
    this ≠ target := by
  rintro rfl
  simp [World.acceptsEther] at accepts

/-- An event that changes nothing at all. Such is a call that an outside account makes to another. -/
theorem Change.unchanged (event : ChainEvent) (quiet : trade event = none)
    (unforced : forcedEther this event = 0) : Change this w event w := by
  refine .quiet event w.marketplace.owner w.marketplace.categories w.marketplace.categoryExists
    w.accounts w.balance w.timestamp quiet rfl ?_ (Nat.le_refl _)
  rw [unforced, Nat.add_zero]

/-- A call that only rewrites the storage of one collection. All calls of collections are such,
except for those that report a supply. -/
theorem Change.collection_only (event : ChainEvent) (collection : Address)
    (body : NFTCollection → Except Revert NFTCollection) (quiet : trade event = none)
    (unforced : forcedEther this event = 0)
    (completed : w.callCollection collection body = .ok after)
    (step : ∀ s result, body s = .ok result → s.TokenStep this result) :
    Change this w event after := by
  obtain ⟨s, result, found, ran, rfl⟩ := callCollection_ok.mp completed
  exact .tokens event collection s result w.marketplace.collections quiet unforced found
    (step s result ran) fun _ => rfl

/-- A marketplace function that only writes the owner and the categories. Adding a category and
handing over are such. -/
theorem Change.storage_only (event : ChainEvent)
    (body : NFTMarketplace → Except Revert NFTMarketplace) (quiet : trade event = none)
    (unforced : forcedEther this event = 0)
    (completed : NFTMarketplace.onStorage body w = .ok after)
    (frame : ∀ s result, body s = .ok result →
      result = { s with
        owner := result.owner
        categories := result.categories
        categoryExists := result.categoryExists }) :
    Change this w event after := by
  obtain ⟨result, ran, rfl⟩ := NFTMarketplace.onStorage_ok.mp completed
  rw [frame w.marketplace result ran]
  refine .quiet event result.owner result.categories result.categoryExists w.accounts w.balance
    w.timestamp quiet rfl ?_ (Nat.le_refl _)
  rw [unforced, Nat.add_zero]

/-- A supply report rewrites one recorded supply. The storage of the collection is written
together with it. -/
theorem Change.supply_report (event : ChainEvent) (sender collection : Address)
    (s result : NFTCollection) (quiet : trade event = none)
    (unforced : forcedEther this event = 0) (found : w.deployed collection = some s)
    (step : s.TokenStep this result)
    (completed : NFTMarketplace.updateCollectionTotalSupply sender collection
      (w.setCollection collection result) = .ok after) :
    Change this w event after := by
  obtain ⟨_, _, reported, _, rfl⟩ :=
    NFTMarketplace.updateCollectionTotalSupply_ok.mp completed
  refine .tokens event collection s result _ quiet unforced found step ?_
  intro address
  by_cases same : address = collection
  · subst same
    simp [World.setCollection]
  · simp [World.setCollection, same]

/-- Every successful call to the marketplace is one of the changes. Each function makes one kind
of change, as the effects of the functions say. -/
theorem marketplace_change {msg : Msg} {call : NFTMarketplace.Call}
    (outside : w.isOutside this msg.sender = true)
    (completed : NFTMarketplace.call this msg call w = .ok after) :
    Change this w (.executed (.marketplace msg call)) after := by
  cases call with
  | addCategory category =>
    obtain ⟨_, completed⟩ := NFTMarketplace.nonPayable_ok.mp completed
    apply Change.storage_only _ _ rfl rfl completed
    intro s result ran
    obtain ⟨_, _, rfl⟩ := NFTMarketplace.addCategory_ok.mp ran
    rfl
  | createCollection name symbol baseURI category newCollection =>
    obtain ⟨_, completed⟩ := NFTMarketplace.nonPayable_ok.mp completed
    obtain ⟨known, fresh, storage, created, rfl⟩ := NFTMarketplace.createCollection_ok.mp completed
    exact .registered msg name symbol baseURI category newCollection storage outside known fresh
      created
  | createMarketItem collection tokenId price =>
    obtain ⟨funded, completed⟩ := NFTMarketplace.payable_ok.mp completed
    obtain ⟨unlocked, active, positive, fee, s, result, found, _, moved, rfl⟩ :=
      NFTMarketplace.createMarketItem_ok.mp completed
    exact .listed msg collection tokenId price s result outside funded unlocked active positive fee
      found moved
  | createMarketSale collection tokenId =>
    obtain ⟨funded, completed⟩ := NFTMarketplace.payable_ok.mp completed
    obtain ⟨unlocked, onSale, fixed, price, accepts, _, s, result, count, found, moved, counted,
      rfl⟩ := NFTMarketplace.createMarketSale_ok.mp completed
    exact .sold msg collection tokenId s result count outside funded unlocked onSale fixed price
      accepts found moved counted
  | createAuction collection tokenId startingPrice duration =>
    obtain ⟨_, completed⟩ := NFTMarketplace.nonPayable_ok.mp completed
    obtain ⟨unlocked, seller, fixed, auctionEndTime, ends, rfl⟩ :=
      NFTMarketplace.createAuction_ok.mp completed
    exact .auctioned msg collection tokenId startingPrice duration auctionEndTime outside unlocked
      seller fixed ends
  | placeBid collection tokenId =>
    obtain ⟨funded, completed⟩ := NFTMarketplace.payable_ok.mp completed
    obtain ⟨unlocked, auction, running, higher, returns, credited, rfl⟩ :=
      NFTMarketplace.placeBid_ok.mp completed
    exact .bid msg collection tokenId returns outside funded unlocked auction running higher credited
  | makeOffer collection tokenId =>
    obtain ⟨funded, completed⟩ := NFTMarketplace.payable_ok.mp completed
    obtain ⟨unlocked, onSale, fixed, positive, rfl⟩ := NFTMarketplace.makeOffer_ok.mp completed
    exact .offered msg collection tokenId outside funded unlocked onSale fixed positive
  | updateCollectionTotalSupply collection =>
    obtain ⟨_, completed⟩ := NFTMarketplace.nonPayable_ok.mp completed
    obtain ⟨_, _, s, found, _⟩ := NFTMarketplace.updateCollectionTotalSupply_ok.mp completed
    have same : w.setCollection collection s = w := by
      simp [World.setCollection, ← found]
    exact .supply_report _ msg.sender collection s s rfl rfl found (.of_same rfl rfl rfl rfl)
      (by rwa [same])
  | transferOwnership newOwner =>
    obtain ⟨_, completed⟩ := NFTMarketplace.nonPayable_ok.mp completed
    apply Change.storage_only _ _ rfl rfl completed
    intro s result ran
    obtain ⟨_, _, rfl⟩ := NFTMarketplace.transferOwnership_ok.mp ran
    rfl
  | renounceOwnership =>
    obtain ⟨_, completed⟩ := NFTMarketplace.nonPayable_ok.mp completed
    apply Change.storage_only _ _ rfl rfl completed
    intro s result ran
    obtain ⟨_, rfl⟩ := NFTMarketplace.renounceOwnership_ok.mp ran
    rfl

/-- Storing the URI and reporting the supply, for a mint that is past its callback. The storage is
read again, since the callback may have changed it. -/
theorem resume_mint_ok {collection : Address} {newTokenId : UInt256} {tokenURI : Bytes} :
    resume this (.mint collection newTokenId tokenURI) w = .ok after ↔
      ∃ s, w.deployed collection = some s ∧ s.marketplaceAddress = this ∧
        NFTMarketplace.updateCollectionTotalSupply collection collection
          (w.setCollection collection (s.setTokenURI newTokenId tokenURI)) = .ok after := by
  simp only [resume, callMarketplace]
  cases w.deployed collection with
  | none => simp
  | some s => by_cases mine : s.marketplaceAddress = this <;> simp [mine]

/-- The remainder of an interrupted action. Only a mint has anything left to do. -/
theorem resume_change {pending : Pending} (completed : resume this pending w = .ok after) :
    Change this w (.resumed pending) after := by
  cases pending with
  | mint collection newTokenId tokenURI =>
    obtain ⟨s, found, _, reported⟩ := resume_mint_ok.mp completed
    exact .supply_report _ collection collection s (s.setTokenURI newTokenId tokenURI) rfl rfl found
      (.of_same rfl rfl rfl rfl) reported
  | safeTransferFrom =>
    obtain rfl := Except.ok.inj completed
    exact .unchanged _ rfl rfl
  | outsideCall =>
    obtain rfl := Except.ok.inj completed
    exact .unchanged _ rfl rfl

/-- A recipient with code is handed control; without code the action goes on. The contracts of the
repository cannot receive tokens in this way. -/
theorem checkOnERC721Received_ok {recipient : Address} {rest : Pending}
    {continuation : Option Pending} :
    checkOnERC721Received this recipient rest w = .ok (after, continuation) ↔
      w.isOutside this recipient = true ∧
        ((w.accounts recipient).hasCode = true ∧ after = w ∧ continuation = some rest ∨
          (w.accounts recipient).hasCode = false ∧ resume this rest w = .ok after ∧
            continuation = none) := by
  unfold checkOnERC721Received
  by_cases outside : w.isOutside this recipient = true
  · by_cases code : (w.accounts recipient).hasCode = true
    · simp [outside, code, eq_comm]
    · simp [outside, code]
  · simp [outside]

/-- A safe transfer is a transfer; its recipient may be called afterwards. So everything that is
known of transfers is known of it. -/
theorem safeTransferFrom_moved {sender collection source target : Address} {tokenId : UInt256}
    {continuation : Option Pending}
    (completed : safeTransferFrom this sender collection source target tokenId w =
      .ok (after, continuation)) :
    w.callCollection collection (NFTCollection.transferFrom sender source target tokenId) =
      .ok after := by
  obtain ⟨moved, transferred, received⟩ := bind_ok.mp completed
  obtain rfl : after = moved := by
    obtain ⟨_, ⟨_, same, _⟩ | ⟨_, resumed, _⟩⟩ := checkOnERC721Received_ok.mp received
    · exact same
    · exact (Except.ok.inj resumed).symm
  exact transferred

/-- A mint creates its token. It is then left at the recipient's callback, or stores the
URI and reports the supply at once. -/
theorem mint_cases {sender collection recipient : Address} {tokenURI : Bytes}
    {continuation : Option Pending}
    (completed : mint this sender collection recipient tokenURI w = .ok (after, continuation)) :
    ∃ s newTokenId minted, w.deployed collection = some s ∧
      s.beginMint sender recipient = .ok (newTokenId, minted) ∧
      ((w.accounts recipient).hasCode = true ∧ after = w.setCollection collection minted ∧
          continuation = some (.mint collection newTokenId tokenURI) ∨
        (w.accounts recipient).hasCode = false ∧
          NFTMarketplace.updateCollectionTotalSupply collection collection
            (w.setCollection collection (minted.setTokenURI newTokenId tokenURI)) = .ok after ∧
          continuation = none) := by
  simp only [mint] at completed
  split at completed
  · cases completed
  · next s found =>
    simp only [bind_ok, Prod.exists] at completed
    obtain ⟨newTokenId, minted, begun, received⟩ := completed
    refine ⟨s, newTokenId, minted, found, begun, ?_⟩
    obtain ⟨_, called | ⟨code, resumed, ended⟩⟩ := checkOnERC721Received_ok.mp received
    · exact .inl called
    · obtain ⟨stored, here, _, reported⟩ := resume_mint_ok.mp resumed
      obtain rfl : minted = stored := by simpa [World.setCollection] using here
      have whole : (w.setCollection collection minted).setCollection collection
          (minted.setTokenURI newTokenId tokenURI) =
          w.setCollection collection (minted.setTokenURI newTokenId tokenURI) := by
        simp [World.setCollection]
      rw [whole] at reported
      exact .inr ⟨code, reported, ended⟩

/-- Minting, with or without the recipient's callback in between, gives a new token
to its first owner. -/
theorem mint_change {sender collection recipient : Address} {tokenURI : Bytes}
    {continuation : Option Pending} (nonzero : this ≠ 0)
    (completed : mint this sender collection recipient tokenURI w = .ok (after, continuation)) :
    Change this w (.executed (.collection sender collection (.mint recipient tokenURI))) after := by
  obtain ⟨s, newTokenId, minted, found, begun, outcome⟩ := mint_cases completed
  have step : s.TokenStep this minted := NFTCollection.beginMint_step nonzero begun
  rcases outcome with ⟨_, rfl, _⟩ | ⟨_, reported, _⟩
  · exact .tokens _ collection s minted w.marketplace.collections rfl rfl found step fun _ => rfl
  · exact .supply_report _ collection collection s (minted.setTokenURI newTokenId tokenURI)
      rfl rfl found (step.trans (.of_same rfl rfl rfl rfl)) reported

/-- An action that cannot be interrupted leaves what its body leaves. It cannot leave a
continuation. -/
theorem completed_ok {result : Except Revert World} {continuation : Option Pending} :
    completed result = .ok (after, continuation) ↔ result = .ok after ∧ continuation = none := by
  unfold completed
  simp only [bind_ok, pure_ok, Prod.mk.injEq]
  constructor
  · rintro ⟨_, ran, rfl, rfl⟩
    exact ⟨ran, rfl⟩
  · rintro ⟨ran, rfl⟩
    exact ⟨after, ran, rfl, rfl⟩

/-- Every successful call to a collection leaves what the marketplace holds with it. No function
of a collection reaches the marketplace, but for the supply that a mint reports. -/
theorem collection_change {sender collection : Address} {call : NFTCollection.Call}
    {continuation : Option Pending} (nonzero : this ≠ 0)
    (outside : w.isOutside this sender = true)
    (ran : NFTCollection.call this sender collection call w = .ok (after, continuation)) :
    Change this w (.executed (.collection sender collection call)) after := by
  obtain ⟨sender_nonzero, other, _⟩ := outside_iff.mp outside
  cases call with
  | mint recipient tokenURI => exact mint_change nonzero ran
  | approve target tokenId =>
    exact .collection_only _ collection _ rfl rfl (completed_ok.mp ran).1
      fun _ _ => NFTCollection.approve_step sender_nonzero other
  | setApprovalForAll operator approved =>
    exact .collection_only _ collection _ rfl rfl (completed_ok.mp ran).1
      fun _ _ => NFTCollection.setApprovalForAll_step sender_nonzero other
  | transferFrom source target tokenId =>
    exact .collection_only _ collection _ rfl rfl (completed_ok.mp ran).1
      fun _ _ => NFTCollection.transferFrom_step sender_nonzero other
  | safeTransferFrom source target tokenId =>
    exact .collection_only _ collection _ rfl rfl (safeTransferFrom_moved ran)
      fun _ _ => NFTCollection.transferFrom_step sender_nonzero other
  | transferOwnership newOwner =>
    apply Change.collection_only _ collection _ rfl rfl (completed_ok.mp ran).1
    intro s result transferred
    obtain ⟨_, _, rfl⟩ := NFTCollection.transferOwnership_ok.mp transferred
    exact .of_same rfl rfl rfl rfl
  | renounceOwnership =>
    apply Change.collection_only _ collection _ rfl rfl (completed_ok.mp ran).1
    intro s result renounced
    obtain ⟨_, rfl⟩ := NFTCollection.renounceOwnership_ok.mp renounced
    exact .of_same rfl rfl rfl rfl

/-- A marketplace call of an outside account runs to its end. So no callback ever sees a
half-executed function of the marketplace. -/
theorem execute_marketplace_ok {msg : Msg} {call : NFTMarketplace.Call}
    {continuation : Option Pending} :
    execute this (.marketplace msg call) w = .ok (after, continuation) ↔
      w.isOutside this msg.sender = true ∧ NFTMarketplace.call this msg call w = .ok after ∧
        continuation = none := by
  simp only [execute, bind_ok, ensure_ok, exists_const, completed_ok]

/-- The classification: every effective event makes one of the eight changes. All that is said
about runs is derived from this. -/
theorem effective_change {event : ChainEvent} (nonzero : this ≠ 0)
    (effective : Effective (chain this) event w after) : Change this w event after := by
  cases event with
  | resumed pending => exact resume_change effective
  | executed action =>
    obtain ⟨continuation, ran⟩ := effective
    cases action with
    | marketplace msg call =>
      obtain ⟨outside, completed, _⟩ := execute_marketplace_ok.mp ran
      exact marketplace_change outside completed
    | collection sender collection call =>
      simp only [chain, execute, bind_ok, ensure_ok, exists_const] at ran
      exact collection_change nonzero ran.1 ran.2
    | outsideCall =>
      obtain ⟨rfl, _⟩ : w = after ∧ some Pending.outsideCall = continuation := by
        simpa [chain, execute] using ran
      exact .unchanged _ rfl rfl
    | moveEther source target amount =>
      simp only [chain, execute, bind_ok, ensure_ok, exists_const, completed_ok, moveEther_ok] at ran
      obtain ⟨outside, ⟨funded, rfl⟩, _⟩ := ran
      obtain ⟨_, other, _⟩ := outside_iff.mp outside
      refine .quiet _ w.marketplace.owner w.marketplace.categories w.marketplace.categoryExists
        w.accounts _ w.timestamp rfl (total_movedBalance w.balance source target amount funded) ?_
        (Nat.le_refl _)
      by_cases received : target = this
      · subst received
        simp [forcedEther, movedBalance_target w.balance amount other]
      · simp [forcedEther, received,
          movedBalance_other w.balance amount other.symm (Ne.symm received)]
    | setAccount address account =>
      obtain ⟨rfl, _⟩ : { w with accounts := update w.accounts address account } = after ∧
          none = continuation := by
        simpa [chain, execute] using ran
      exact .quiet _ w.marketplace.owner w.marketplace.categories w.marketplace.categoryExists
        _ w.balance w.timestamp rfl rfl rfl (Nat.le_refl _)
    | nextBlock timestamp =>
      simp only [chain, execute, bind_ok, ensure_ok, exists_const, pure_ok, Prod.mk.injEq] at ran
      obtain ⟨later, rfl, _⟩ := ran
      exact .quiet _ w.marketplace.owner w.marketplace.categories w.marketplace.categoryExists
        w.accounts w.balance _ rfl rfl rfl later

end Classification

end OpenBeach
