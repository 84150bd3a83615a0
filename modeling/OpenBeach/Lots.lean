import OpenBeach.Library.BidBook
import OpenBeach.Registry

/-!
# One token on the market

A lot is everything the two contracts store about one token. What an event does to
a lot depends on the lot alone, apart from the time: a call on the token is one of
five steps, and any other event leaves all but the holder as it was, and the holder
too while the marketplace is the holder.

Properties of a single token are proved by cases on these steps. The market's
records of bids are a bid book: its claims are what the steps keep track of.
-/

namespace OpenBeach

open Function Mappings NestedCalls BidBook

/-- A token's listing record, its owner, and the marketplace's ledgers about it. This is all of
the world that trades of the token read and write, but for the balances. -/
structure Lot where
  item : MarketItem
  holder : Address
  returns : Address → UInt256
  offers : List Offer
  listings : Nat
  buyers : Address → Bool

/-- What the world says of one token, collected from six mappings of two contracts. Each field is
a plain reading, so a change of the world is a change of the lot. -/
def World.lot (w : World) (collection : Address) (tokenId : UInt256) : Lot where
  item := w.item collection tokenId
  holder := w.ownerOf collection tokenId
  returns := w.marketplace.pendingReturns collection tokenId
  offers := w.marketplace.itemOffers collection tokenId
  listings := (w.marketplace.collectionTokenIds collection).count tokenId
  buyers user := w.marketplace.userPurchases user collection tokenId

/-- A token never minted nor traded. Every lot is so in the first state of a run. -/
def Lot.unset : Lot := ⟨.unset, 0, fun _ => 0, [], 0, fun _ => false⟩

/-- The bid book behind a lot: a zero bidder stands for no bid. The credit of an account is what
is stored for it among the returns. -/
def Lot.book (lot : Lot) : Book Address where
  standing :=
    if lot.item.highestBidder = 0 then none
    else some (lot.item.highestBidder, lot.item.highestBid.toNat)
  credit account := (lot.returns account).toNat

/-- How the event trades the given token, if it does. A trade names its token, so it is on one
token and no other. -/
def tradeOn (collection : Address) (tokenId : UInt256) (event : ChainEvent) : Option TradeEvent :=
  match trade event with
  | some (key, kind) => if key = (collection, tokenId) then some kind else none
  | none => none

/-- What an event does to the lot of a token. Each constructor carries what its call had checked,
so that an invariant of lots is proved by cases without looking at the code again. -/
inductive LotStep (this collection : Address) (tokenId now : UInt256) (lot : Lot) :
    Option TradeEvent → Lot → Prop where
  | idle (holder : Address) (kept : lot.holder = this → holder = this) :
      LotStep this collection tokenId now lot none { lot with holder }
  | listing (seller : Address) (price : UInt256) (tokenURI : Bytes) (nonzero : seller ≠ 0)
      (other : seller ≠ this) (positive : 0 < price) (owned : lot.holder = seller) :
      LotStep this collection tokenId now lot
        (some (.listing seller price NFTMarketplace.initialListingFee))
        { lot with
          item := NFTMarketplace.listedItem collection tokenId seller price tokenURI
          holder := this
          listings := lot.listings + 1 }
  | sale (buyer : Address) (nonzero : buyer ≠ 0) (other : buyer ≠ this)
      (onSale : lot.item.isOnSale = true) (fixed : lot.item.isAuction = false)
      (held : lot.holder = this) :
      LotStep this collection tokenId now lot (some (.sale buyer lot.item.price))
        { lot with
          item := { lot.item with isOnSale := false, owner := buyer }
          holder := buyer
          buyers := update lot.buyers buyer true }
  | auction (startingPrice duration auctionEndTime : UInt256) (nonzero : lot.item.seller ≠ 0)
      (fixed : lot.item.isAuction = false)
      (ends : auctionEndTime.toNat = now.toNat + duration.toNat) :
      LotStep this collection tokenId now lot
        (some (.auction lot.item.seller startingPrice duration))
        { lot with
          item := { lot.item with isAuction := true, price := startingPrice, auctionEndTime } }
  | bid (bidder : Address) (value : UInt256) (returns : Address → UInt256) (nonzero : bidder ≠ 0)
      (auction : lot.item.isAuction = true) (running : now < lot.item.auctionEndTime)
      (higher : lot.item.highestBid < value)
      (credited : ∀ account, (returns account).toNat = lot.book.claim account) :
      LotStep this collection tokenId now lot (some (.bid bidder value))
        { lot with
          item := { lot.item with highestBidder := bidder, highestBid := value }
          returns }
  | offer (buyer : Address) (value : UInt256) (onSale : lot.item.isOnSale = true)
      (fixed : lot.item.isAuction = false) (positive : 0 < value) :
      LotStep this collection tokenId now lot (some (.offer buyer value))
        { lot with offers := lot.offers ++ [⟨buyer, value, now⟩] }

section Projection

variable {this : Address} {w after : World} {event : ChainEvent}

/-- A transfer moves one token. All other tokens, of this and of all other collections, stay where
they are. -/
theorem ownerIn_moved {collection sender source target : Address} {tokenId : UInt256}
    {s result : NFTCollection} (found : w.deployed collection = some s)
    (moved : NFTCollection.transferFrom sender source target tokenId s = .ok result)
    (tested : Address) (testedId : UInt256) :
    ownerIn (update w.deployed collection (some result)) tested testedId =
      if tested = collection ∧ testedId = tokenId then target else w.ownerOf tested testedId := by
  obtain ⟨_, _, _, rfl⟩ := NFTCollection.transferFrom_ok.mp moved
  by_cases same : tested = collection
  · subst same
    by_cases here : testedId = tokenId <;>
      simp [World.ownerOf, ownerIn, found, NFTCollection.reassign, here]
  · simp [World.ownerOf, ownerIn, same]

/-- A transfer moves a token of the account it names. So a transfer in the name of somebody else
fails. -/
theorem ownerOf_source {collection sender source target : Address} {tokenId : UInt256}
    {s result : NFTCollection} (found : w.deployed collection = some s)
    (moved : NFTCollection.transferFrom sender source target tokenId s = .ok result) :
    w.ownerOf collection tokenId = source := by
  obtain ⟨_, _, same, _⟩ := NFTCollection.transferFrom_ok.mp moved
  simpa [World.ownerOf, ownerIn, found] using same

/-- Crediting concerns the returns of the token bid on. Every token has its own returns. -/
theorem NFTMarketplace.ReturnsCredited.other {collection : Address} {tokenId : UInt256} {item : MarketItem}
    {s : NFTMarketplace} {returns : Address → UInt256 → Address → UInt256}
    (credited : s.ReturnsCredited collection tokenId item returns) {tested : Address}
    {testedId : UInt256} (different : ¬ (tested = collection ∧ testedId = tokenId)) :
    returns tested testedId = s.pendingReturns tested testedId := by
  unfold NFTMarketplace.ReturnsCredited at credited
  split at credited
  · rw [credited]
  · obtain ⟨credit, _, rfl⟩ := credited
    funext account
    rw [update₃_apply, if_neg fun same => different ⟨same.1, same.2.1⟩]

/-- After crediting, the returns of the token are the claims of its book. What the replaced bidder
had in the standing bid is now credit. -/
theorem NFTMarketplace.ReturnsCredited.claims {collection : Address} {tokenId : UInt256}
    {returns : Address → UInt256 → Address → UInt256}
    (credited : w.marketplace.ReturnsCredited collection tokenId (w.item collection tokenId)
      returns) (account : Address) :
    (returns collection tokenId account).toNat = (w.lot collection tokenId).book.claim account := by
  have book : (w.lot collection tokenId).book.claim account =
      (w.marketplace.pendingReturns collection tokenId account).toNat +
        (w.lot collection tokenId).book.held account := rfl
  unfold NFTMarketplace.ReturnsCredited at credited
  split at credited
  · next vacant =>
    rw [credited, book]
    simp [Lot.book, World.lot, Book.held, vacant]
  · next standing =>
    obtain ⟨credit, exact, rfl⟩ := credited
    rw [book, update₃_apply]
    by_cases leader : account = (w.item collection tokenId).highestBidder
    · subst leader
      simp [Lot.book, World.lot, Book.held, standing, exact]
    · simp [Lot.book, World.lot, Book.held, standing, leader, eq_comm]

/-- An event that is not about the token and keeps it in custody is idle. Who holds the token may
change, as long as it does not leave the marketplace. -/
theorem LotStep.of_same {collection : Address} {tokenId : UInt256}
    (apart : tradeOn collection tokenId event = none)
    (item : after.item collection tokenId = w.item collection tokenId)
    (returns : after.marketplace.pendingReturns collection tokenId =
      w.marketplace.pendingReturns collection tokenId)
    (offers : after.marketplace.itemOffers collection tokenId =
      w.marketplace.itemOffers collection tokenId)
    (listings : (after.marketplace.collectionTokenIds collection).count tokenId =
      (w.marketplace.collectionTokenIds collection).count tokenId)
    (buyers : ∀ user, after.marketplace.userPurchases user collection tokenId =
      w.marketplace.userPurchases user collection tokenId)
    (kept : w.ownerOf collection tokenId = this → after.ownerOf collection tokenId = this) :
    LotStep this collection tokenId w.timestamp (w.lot collection tokenId)
      (tradeOn collection tokenId event) (after.lot collection tokenId) := by
  have same : after.lot collection tokenId =
      { w.lot collection tokenId with holder := after.ownerOf collection tokenId } := by
    simp [World.lot, item, returns, offers, listings, buyers]
  rw [apart, same]
  exact .idle (after.ownerOf collection tokenId) kept

/-- An event is about a token exactly if it trades that token. With it, facts about trades of any
token become facts about trades of this one. -/
theorem tradeOn_eq_some {collection : Address} {tokenId : UInt256} {kind : TradeEvent} :
    tradeOn collection tokenId event = some kind ↔
      trade event = some ((collection, tokenId), kind) := by
  unfold tradeOn
  cases trade event with
  | none => simp
  | some traded =>
    obtain ⟨key, traded⟩ := traded
    by_cases same : key = (collection, tokenId) <;> simp [same]

/-- A trade of one token is not about any other. It differs in its collection or in its number. -/
theorem different_of_apart {collection tested : Address} {tokenId testedId : UInt256}
    {kind : TradeEvent} (traded : trade event = some ((collection, tokenId), kind))
    (apart : tradeOn tested testedId event = none) :
    ¬ (tested = collection ∧ testedId = tokenId) := by
  rintro ⟨rfl, rfl⟩
  rw [tradeOn_eq_some.mpr traded] at apart
  cases apart

/-- The frame law: an event that does not trade a token leaves its lot idle. Such events are
trades of other tokens, and all calls that trade nothing. -/
theorem Change.lot_idle (change : Change this w event after) (nonzero : this ≠ 0)
    (registry : Registry this w) {collection : Address} {tokenId : UInt256}
    (apart : tradeOn collection tokenId event = none) :
    LotStep this collection tokenId w.timestamp (w.lot collection tokenId)
      (tradeOn collection tokenId event) (after.lot collection tokenId) := by
  cases change with
  | registered msg name symbol baseURI category newCollection storage outside known fresh created =>
    refine .of_same apart rfl rfl rfl rfl (fun _ => rfl) ?_
    intro held
    have different : collection ≠ newCollection := by
      rintro rfl
      have absent : w.deployed collection = none := (outside_iff.mp fresh).2.2
      exact nonzero (by simpa [World.ownerOf, ownerIn, absent, eq_comm] using held)
    simpa [World.ownerOf, ownerIn, different] using held
  | listed msg listedCollection listedId price s result outside funded unlocked active positive fee
      found moved =>
    have different : ¬ (collection = listedCollection ∧ tokenId = listedId) :=
      different_of_apart rfl apart
    refine .of_same apart ?_ rfl rfl ?_ (fun _ => rfl) ?_
    · simp [World.item, NFTMarketplace.listing, update₂_apply, different]
    · by_cases same : collection = listedCollection
      · subst same
        have apartId : listedId ≠ tokenId := fun here => different ⟨rfl, here.symm⟩
        simp [NFTMarketplace.listing, List.count_append, apartId]
      · simp [NFTMarketplace.listing, same]
    · intro held
      exact (ownerIn_moved found moved collection tokenId).trans ((if_neg different).trans held)
  | sold msg soldCollection soldId s result count outside funded unlocked onSale fixed price accepts
      found moved counted =>
    have different : ¬ (collection = soldCollection ∧ tokenId = soldId) :=
      different_of_apart rfl apart
    refine .of_same apart ?_ rfl rfl rfl ?_ ?_
    · simp [World.item, NFTMarketplace.selling, update₂_apply, different]
    · intro user
      simp [NFTMarketplace.selling, update₃_apply, different]
    · intro held
      exact (ownerIn_moved found moved collection tokenId).trans ((if_neg different).trans held)
  | auctioned msg auctionedCollection auctionedId startingPrice duration auctionEndTime outside
      unlocked seller fixed ends =>
    have different : ¬ (collection = auctionedCollection ∧ tokenId = auctionedId) :=
      different_of_apart rfl apart
    refine .of_same apart ?_ rfl rfl rfl (fun _ => rfl) id
    simp [World.item, update₂_apply, different]
  | bid msg biddenCollection biddenId returns outside funded unlocked auction running higher
      credited =>
    have different : ¬ (collection = biddenCollection ∧ tokenId = biddenId) :=
      different_of_apart rfl apart
    refine .of_same apart ?_ (credited.other different) rfl rfl (fun _ => rfl) id
    simp [World.item, update₂_apply, different]
  | offered msg offeredCollection offeredId outside funded unlocked onSale fixed positive =>
    have different : ¬ (collection = offeredCollection ∧ tokenId = offeredId) :=
      different_of_apart rfl apart
    refine .of_same apart rfl rfl ?_ rfl (fun _ => rfl) id
    simp [update₂_apply, different]
  | tokens _ changed s result collections quiet unforced found step supply =>
    refine .of_same apart rfl rfl rfl rfl (fun _ => rfl) ?_
    intro held
    by_cases same : collection = changed
    · subst same
      have owned : s.owners tokenId = this := by simpa [World.ownerOf, ownerIn, found] using held
      simpa [World.ownerOf, ownerIn] using
        step.held (registry.unapproved collection s found) tokenId owned
    · simpa [World.ownerOf, ownerIn, same] using held
  | quiet => exact .of_same apart rfl rfl rfl rfl (fun _ => rfl) id

/-- The update law: a trade makes the step of its kind in the lot it names. The facts that the
call had checked go into the step. -/
theorem Change.lot_traded (change : Change this w event after) (registry : Registry this w)
    {collection : Address} {tokenId : UInt256} {kind : TradeEvent}
    (traded : trade event = some ((collection, tokenId), kind)) :
    LotStep this collection tokenId w.timestamp (w.lot collection tokenId) (some kind)
      (after.lot collection tokenId) := by
  cases change with
  | registered => cases traded
  | listed msg _ _ price s result outside funded unlocked active positive fee found moved =>
    cases traded
    obtain ⟨nonzero, other, _⟩ := outside_iff.mp outside
    have paid : msg.value = NFTMarketplace.initialListingFee := fee.trans registry.fee
    have owned : (w.lot collection tokenId).holder = msg.sender := ownerOf_source found moved
    rw [paid]
    convert LotStep.listing msg.sender price (s.tokenURIs tokenId) nonzero other positive owned
      using 1
    simp [World.lot, World.item, World.ownerOf, NFTMarketplace.listing, ownerIn_moved found moved]
  | sold msg _ _ s result count outside funded unlocked onSale fixed price accepts found moved
      counted =>
    cases traded
    obtain ⟨nonzero, other, _⟩ := outside_iff.mp outside
    have held : (w.lot collection tokenId).holder = this := ownerOf_source found moved
    rw [price]
    convert LotStep.sale msg.sender nonzero other onSale fixed held using 1
    · rfl
    · have buyers : (fun user => update₃ w.marketplace.userPurchases msg.sender collection tokenId
          true user collection tokenId) =
          update (fun user => w.marketplace.userPurchases user collection tokenId) msg.sender
            true := by
        funext user
        by_cases same : user = msg.sender <;> simp [update₃_apply, same]
      simp [World.lot, World.item, World.ownerOf, NFTMarketplace.selling, buyers,
        ownerIn_moved found moved]
  | auctioned msg _ _ startingPrice duration auctionEndTime outside unlocked seller fixed ends =>
    cases traded
    obtain ⟨nonzero, _, _⟩ := outside_iff.mp outside
    rw [← seller] at nonzero ⊢
    have standing : (w.lot collection tokenId).item.isAuction = false := fixed
    convert LotStep.auction startingPrice duration auctionEndTime nonzero standing ends using 1
    · rfl
    · simp [World.lot, World.item, World.ownerOf]
  | bid msg _ _ returns outside funded unlocked auction running higher credited =>
    cases traded
    obtain ⟨nonzero, _, _⟩ := outside_iff.mp outside
    convert LotStep.bid msg.sender msg.value (returns collection tokenId) nonzero auction running
      higher credited.claims using 1
    simp [World.lot, World.item, World.ownerOf]
  | offered msg _ _ outside funded unlocked onSale fixed positive =>
    cases traded
    have listed : (w.lot collection tokenId).item.isOnSale = true := onSale
    convert LotStep.offer msg.sender msg.value listed fixed positive using 1
    simp [World.lot, World.item, World.ownerOf]
  | tokens _ changed s result collections quiet =>
    rw [quiet] at traded
    cases traded
  | quiet _ owner categories categoryExists accounts balance timestamp quiet =>
    rw [quiet] at traded
    cases traded

/-- The projection: every event makes a step of every lot. It is put together from the frame law
and the update law. -/
theorem Change.lot (change : Change this w event after) (nonzero : this ≠ 0)
    (registry : Registry this w) (collection : Address) (tokenId : UInt256) :
    LotStep this collection tokenId w.timestamp (w.lot collection tokenId)
      (tradeOn collection tokenId event) (after.lot collection tokenId) := by
  cases seen : tradeOn collection tokenId event with
  | none => exact seen ▸ change.lot_idle nonzero registry seen
  | some kind => exact change.lot_traded registry (tradeOn_eq_some.mp seen)

end Projection

end OpenBeach
