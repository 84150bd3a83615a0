import OpenBeach.Purchases

/-!
# Listings and their sales

Listings and sales of a token alternate. Every sale closes the latest listing, which
nothing closed before and no auction changed, so it is paid at its own price and to
its own lister. In between only the lister can change what the listing says, and
only once.
-/

namespace OpenBeach

open Function Mappings NestedCalls NFTMarketplace

/-- Whether an event sells the token. The buyer and the payment do not matter. -/
def sells (collection : Address) (tokenId : UInt256) (event : ChainEvent) : Bool :=
  match tradeOn collection tokenId event with
  | some (.sale _ _) => true
  | _ => false

/-- Whether an event starts an auction of the token. The terms of the auction do not matter. -/
def auctions (collection : Address) (tokenId : UInt256) (event : ChainEvent) : Bool :=
  match tradeOn collection tokenId event with
  | some (.auction _ _ _) => true
  | _ => false

section Sales

/-- An item on sale goes back to a listing of its seller that nothing has closed, and
at whose price it still is if no auction was started. -/
structure OpenListing (collection : Address) (tokenId : UInt256) (item : MarketItem)
    (between : List ChainReceipt) (listing : ChainReceipt) (price : UInt256) : Prop where
  listed : tradeOn collection tokenId listing.event =
    some (.listing item.seller price initialListingFee)
  unlisted : ∀ receipt ∈ between, lists collection tokenId receipt.event = false
  unsold : ∀ receipt ∈ between, sells collection tokenId receipt.event = false
  unauctioned : item.isAuction = false →
    item.price = price ∧ ∀ receipt ∈ between, auctions collection tokenId receipt.event = false

/-- An item on sale has its open listing in the history. Nothing else than a listing puts an item
on sale. -/
def HasListing (collection : Address) (tokenId : UInt256) (history : List ChainReceipt)
    (item : MarketItem) : Prop :=
  item.isOnSale = true → ∃ between listing earlier price, history = between ++ listing :: earlier ∧
    OpenListing collection tokenId item between listing price

variable {this collection : Address} {tokenId now : UInt256} {lot after : Lot}

/-- A step that is neither a listing nor a sale keeps a listing open. The seller stays, and an
auction may begin but not end. -/
theorem OpenListing.step {item changed : MarketItem} {between : List ChainReceipt}
    {listing receipt : ChainReceipt} {price : UInt256}
    (opened : OpenListing collection tokenId item between listing price)
    (seller : changed.seller = item.seller)
    (unlisted : lists collection tokenId receipt.event = false)
    (unsold : sells collection tokenId receipt.event = false)
    (fixed : changed.isAuction = false → item.isAuction = false ∧ changed.price = item.price ∧
      auctions collection tokenId receipt.event = false) :
    OpenListing collection tokenId changed (receipt :: between) listing price where
  listed := by rw [seller, opened.listed]
  unlisted := List.forall_mem_cons.mpr ⟨unlisted, opened.unlisted⟩
  unsold := List.forall_mem_cons.mpr ⟨unsold, opened.unsold⟩
  unauctioned still := by
    obtain ⟨before, same, unauctioned⟩ := fixed still
    obtain ⟨price, past⟩ := opened.unauctioned before
    exact ⟨same.trans price, List.forall_mem_cons.mpr ⟨unauctioned, past⟩⟩

variable (deployment : Deployment) (moves : List (Move Action)) (collection : Address)
  (tokenId : UInt256)

/-- What keeps the listing behind an item on sale, for all events of a run. The cases are those of
the step: a listing opens one, a sale leaves nothing on sale, and every other step keeps the open
one. -/
theorem keeps_listing (event : ChainEvent) (history : List ChainReceipt) (w : World)
    (step : LotStep this collection tokenId w.timestamp (w.lot collection tokenId)
      (tradeOn collection tokenId event) after)
    (inductionHypothesis :
      HasListing collection tokenId history (w.lot collection tokenId).item) :
    HasListing collection tokenId (⟨w, event⟩ :: history) after.item := by
  intro onSale
  generalize seen : tradeOn collection tokenId event = kind at step
  cases step with
  | listing seller price tokenURI nonzero other positive owned =>
    refine ⟨[], ⟨w, event⟩, history, price, rfl, seen, by simp, by simp, ?_⟩
    exact fun _ => ⟨rfl, by simp⟩
  | sale => cases onSale
  | auction startingPrice duration auctionEndTime nonzero fixed ends =>
    obtain ⟨between, listing, earlier, price, rfl, opened⟩ := inductionHypothesis onSale
    refine ⟨⟨w, event⟩ :: between, listing, earlier, price, rfl, opened.step rfl ?_ ?_ ?_⟩
    · simp [lists, seen]
    · simp [sells, seen]
    · intro impossible
      cases impossible
  | idle | bid | offer =>
    obtain ⟨between, listing, earlier, price, rfl, opened⟩ := inductionHypothesis onSale
    refine ⟨⟨w, event⟩ :: between, listing, earlier, price, rfl, opened.step rfl ?_ ?_ ?_⟩
    · simp [lists, seen]
    · simp [sells, seen]
    · exact fun fixed => ⟨fixed, rfl, by simp [auctions, seen]⟩

/-- A token that is on sale was listed, and its terms are those of its latest listing, as far as
no auction was started since. -/
theorem has_listing : HasListing collection tokenId (deployment.history moves)
    ((deployment.world moves).item collection tokenId) :=
  deployment.lot_invariant moves collection tokenId
    (fun history lot => HasListing collection tokenId history lot.item)
    (fun impossible => by cases impossible)
    (fun event history w _ step _ => keeps_listing collection tokenId event history w step)

/-- The same before any event of the run. Receipts carry the world their event started from, so
that the past can be asked. -/
theorem has_listing_at (newer older : List ChainReceipt) (receipt : ChainReceipt)
    (recorded : deployment.history moves = newer ++ receipt :: older) :
    HasListing collection tokenId older (receipt.before.lot collection tokenId).item :=
  deployment.lot_at moves collection tokenId
    (fun history lot => HasListing collection tokenId history lot.item)
    (fun impossible => by cases impossible)
    (fun event history w _ step _ => keeps_listing collection tokenId event history w step)
    newer older receipt recorded

/-- What a sale does: it pays the seller out of the buyer's account, hands over the
token, and leaves every other item and owner, all returns and all offers alone. -/
structure Sold (this : Address) (buyer : Address) (payment : UInt256) (collection : Address)
    (tokenId : UInt256) (w after : World) : Prop where
  paid : after.balance =
    movedBalance w.balance buyer (w.item collection tokenId).seller payment.toNat
  held : w.ownerOf collection tokenId = this
  handed : after.ownerOf collection tokenId = buyer
  closed : after.item collection tokenId =
    { w.item collection tokenId with isOnSale := false, owner := buyer }
  items : ∀ otherCollection otherId, ¬ (otherCollection = collection ∧ otherId = tokenId) →
    after.item otherCollection otherId = w.item otherCollection otherId
  owners : ∀ otherCollection otherId, ¬ (otherCollection = collection ∧ otherId = tokenId) →
    after.ownerOf otherCollection otherId = w.ownerOf otherCollection otherId
  returns : after.marketplace.pendingReturns = w.marketplace.pendingReturns
  offers : after.marketplace.itemOffers = w.marketplace.itemOffers

/-- A sale does to the token and to the balances what buyer and seller expect, and nothing to
anything else. -/
theorem Change.sold_effect {w changed : World} {event : ChainEvent} {buyer : Address}
    {payment : UInt256} (change : Change this w event changed)
    (sold : tradeOn collection tokenId event = some (.sale buyer payment)) :
    Sold this buyer payment collection tokenId w changed := by
  obtain rfl := sale_call sold
  cases change with
  | sold msg _ _ s result count outside funded unlocked onSale fixed price accepts found moved =>
    have other := (outside_iff.mp outside).2.1
    have seller : this ≠ (w.item collection tokenId).seller := ne_of_accepts accepts
    have owner := ownerIn_moved found moved
    refine
      { paid := movedBalance_through w.balance payment.toNat other seller
        held := ownerOf_source found moved
        handed := (owner collection tokenId).trans (if_pos ⟨rfl, rfl⟩)
        closed := ?_
        items := ?_
        owners := ?_
        returns := rfl
        offers := rfl }
    · simp [World.item, selling]
    · intro otherCollection otherId different
      simp [World.item, selling, update₂_apply, different]
    · intro otherCollection otherId different
      exact (owner otherCollection otherId).trans (if_neg different)
  | tokens _ changed s result collections quiet => cases quiet
  | quiet _ owner categories categoryExists accounts balance timestamp quiet => cases quiet

/-- Every sale closes the latest listing, which no other sale closed and no auction changed, at
its price, and pays exactly that price to the account that listed. The latest listing before a
sale is found by going back in the history, and its terms are those of the item at the moment of
the sale. -/
theorem listing_paid_once (newer older : List ChainReceipt) (sale : ChainReceipt)
    (recorded : deployment.history moves = newer ++ sale :: older) (buyer : Address)
    (payment : UInt256)
    (sold : tradeOn collection tokenId sale.event = some (.sale buyer payment)) :
    (∃ between listing earlier lister, older = between ++ listing :: earlier ∧
      tradeOn collection tokenId listing.event =
        some (.listing lister payment initialListingFee) ∧
      lister = (sale.before.item collection tokenId).seller ∧
      ∀ receipt ∈ between, lists collection tokenId receipt.event = false ∧
        sells collection tokenId receipt.event = false ∧
        auctions collection tokenId receipt.event = false) ∧
      ∀ after, Effective (chain deployment.address) sale.event sale.before after →
        Sold deployment.address buyer payment collection tokenId sale.before after := by
  constructor
  · have member : sale ∈ deployment.history moves := by simp [recorded]
    obtain ⟨sound, after, step⟩ := deployment.receipt_step moves collection tokenId member
    rw [sold] at step
    cases step with
    | sale _ nonzero other onSale fixed held =>
      obtain ⟨between, listing, earlier, price, split, opened⟩ :=
        has_listing_at deployment moves collection tokenId newer older sale recorded onSale
      obtain ⟨asked, unauctioned⟩ := opened.unauctioned fixed
      refine ⟨between, listing, earlier, _, split, ?_, rfl, ?_⟩
      · rw [asked]
        exact opened.listed
      · intro receipt recent
        exact ⟨opened.unlisted receipt recent, opened.unsold receipt recent,
          unauctioned receipt recent⟩
  · intro after effective
    exact (deployment.change effective).sold_effect collection tokenId sold

/-- Account 12 buys the token account 11 listed. The price is what the listing asked for. -/
def sampleSale : List (Move Action) :=
  Deployment.sampleListing ++ [.act (.marketplace ⟨12, 1000⟩ (.createMarketSale 100 1))]

/-- The sale of the sample closes the listing that account 11 made for 1000 wei. Nothing happened
to the token in between. -/
theorem sampleSale_paid_once :
    ∃ between listing earlier lister,
      (Deployment.sample.history sampleSale).drop 1 = between ++ listing :: earlier ∧
        tradeOn 100 1 listing.event = some (.listing lister 1000 initialListingFee) := by
  have sold : 0 < (Deployment.sample.history sampleSale).length := by decide +kernel
  obtain ⟨⟨between, listing, earlier, lister, split, listed, _⟩, _⟩ :=
    listing_paid_once Deployment.sample sampleSale 100 1 []
      ((Deployment.sample.history sampleSale).drop 1)
      ((Deployment.sample.history sampleSale).get ⟨0, sold⟩) (by rfl) 12 1000 (by rfl)
  exact ⟨between, listing, earlier, lister, split, listed⟩

end Sales

section Matching

variable {collection : Address} {tokenId : UInt256} {this : Address} {now : UInt256}
  {lot after : Lot}

/-- The first listing or sale of the token after some point of a run. Histories have the newest
event first, so the first deal is found from the end. -/
def nextDeal (collection : Address) (tokenId : UInt256) (newer : List ChainReceipt) :
    Option ChainReceipt :=
  newer.reverse.find? fun receipt =>
    lists collection tokenId receipt.event || sells collection tokenId receipt.event

/-- A listing was bought by the user if a sale to the user came next. A listing that was followed
by another deal first was not bought by a sale after it. -/
def BoughtBy (collection : Address) (tokenId : UInt256) (user : Address)
    (newer : List ChainReceipt) : Prop :=
  ∃ sale payment, nextDeal collection tokenId newer = some sale ∧
    tradeOn collection tokenId sale.event = some (.sale user payment)

/-- The next deal after a moment is the earliest one since, so a newer event is the next deal only
if there was none before it. -/
theorem nextDeal_cons (receipt : ChainReceipt) (newer : List ChainReceipt) :
    nextDeal collection tokenId (receipt :: newer) =
      (nextDeal collection tokenId newer).or
        (if lists collection tokenId receipt.event || sells collection tokenId receipt.event
          then some receipt else none) := by
  unfold nextDeal
  rw [List.reverse_cons, List.find?_append, List.find?_singleton]

/-- Nothing closed a listing with no deal since. The listing is then the open one of the token. -/
theorem nextDeal_eq_none {between : List ChainReceipt}
    (unlisted : ∀ receipt ∈ between, lists collection tokenId receipt.event = false)
    (unsold : ∀ receipt ∈ between, sells collection tokenId receipt.event = false) :
    nextDeal collection tokenId between = none := by
  apply List.find?_eq_none.mpr
  intro receipt member
  have recent := List.mem_reverse.mp member
  simp [unlisted receipt recent, unsold receipt recent]

/-- A sale with no deal since the listing is its next deal. What happened after the sale does not
change what closed the listing. -/
theorem nextDeal_eq_sale {newer between : List ChainReceipt} {sale : ChainReceipt}
    (sold : sells collection tokenId sale.event = true)
    (unlisted : ∀ receipt ∈ between, lists collection tokenId receipt.event = false)
    (unsold : ∀ receipt ∈ between, sells collection tokenId receipt.event = false) :
    nextDeal collection tokenId (newer ++ sale :: between) = some sale := by
  have nothing := nextDeal_eq_none unlisted unsold
  unfold nextDeal at nothing ⊢
  rw [List.reverse_append, List.reverse_cons, List.append_assoc, List.find?_append, nothing]
  simp [sold]

/-- An event that sells a token does so to somebody, who pays. The two are read from the same kind
of trade. -/
theorem sells_eq_true {event : ChainEvent} :
    sells collection tokenId event = true ↔
      ∃ buyer payment, tradeOn collection tokenId event = some (.sale buyer payment) := by
  unfold sells
  split
  · next buyer payment sold => simpa using ⟨buyer, payment, sold⟩
  · next unsold => simpa using unsold

variable (deployment : Deployment) (moves : List (Move Action)) (collection : Address)
  (tokenId : UInt256)

/-- What came of a listing: it is still open, or a sale closed it. No listing is closed by another
listing, for a listed token is in custody. -/
theorem listing_fate (newer older : List ChainReceipt) (listing : ChainReceipt)
    (recorded : deployment.history moves = newer ++ listing :: older)
    (listed : lists collection tokenId listing.event = true) :
    (nextDeal collection tokenId newer = none ∧
        ((deployment.world moves).item collection tokenId).isOnSale = true) ∨
      ∃ sale, nextDeal collection tokenId newer = some sale ∧
        sells collection tokenId sale.event = true := by
  refine deployment.lot_since moves collection tokenId newer older listing recorded
    (fun newer lot => (nextDeal collection tokenId newer = none ∧ lot.item.isOnSale = true) ∨
      ∃ sale, nextDeal collection tokenId newer = some sale ∧
        sells collection tokenId sale.event = true) ?_ ?_
  · intro after step sound
    unfold lists at listed
    generalize tradeOn collection tokenId listing.event = kind at step listed
    cases step with
    | listing => exact .inl ⟨rfl, rfl⟩
    | idle | sale | auction | bid | offer => cases listed
  · intro event newer w after step sound inductionHypothesis
    rw [nextDeal_cons]
    rcases inductionHypothesis with ⟨nothing, onSale⟩ | ⟨sale, next, sold⟩
    · rw [nothing, Option.none_or]
      generalize seen : tradeOn collection tokenId event = kind at step
      cases step with
      | listing seller price tokenURI nonzero other positive owned =>
        exact absurd (owned.symm.trans (sound.escrowed onSale)) other
      | sale buyer nonzero other onSale fixed held =>
        exact .inr ⟨⟨w, event⟩, by simp [sells, seen], by simp [sells, seen]⟩
      | idle | auction | bid | offer =>
        exact .inl ⟨by simp [lists, sells, seen], onSale⟩
    · rw [next, Option.some_or]
      exact .inr ⟨sale, rfl, sold⟩

/-- A sale was preceded by a listing, and by no sale since. The listing it found is the one that
the sale pays for. -/
theorem sale_has_listing (newer older : List ChainReceipt) (sale : ChainReceipt)
    (recorded : deployment.history moves = newer ++ sale :: older) (buyer : Address)
    (payment : UInt256)
    (sold : tradeOn collection tokenId sale.event = some (.sale buyer payment)) :
    ∃ between listing earlier, older = between ++ listing :: earlier ∧
      lists collection tokenId listing.event = true ∧
      ∀ receipt ∈ between, lists collection tokenId receipt.event = false ∧
        sells collection tokenId receipt.event = false := by
  have member : sale ∈ deployment.history moves := by simp [recorded]
  obtain ⟨_, after, step⟩ := deployment.receipt_step moves collection tokenId member
  rw [sold] at step
  cases step with
  | sale _ nonzero other onSale fixed held =>
    obtain ⟨between, listing, earlier, _, split, opened⟩ :=
      has_listing_at deployment moves collection tokenId newer older sale recorded onSale
    exact ⟨between, listing, earlier, split, by simp [lists, opened.listed],
      fun receipt recent => ⟨opened.unlisted receipt recent, opened.unsold receipt recent⟩⟩

/-- All listings of a token were bought by one user exactly if none is open and all its
sales were to that user. -/
theorem all_bought_iff (user : Address) :
    (∀ newer listing older, deployment.history moves = newer ++ listing :: older →
        lists collection tokenId listing.event = true →
          BoughtBy collection tokenId user newer) ↔
      ¬ ((deployment.world moves).item collection tokenId).isOnSale = true ∧
        ∀ sale ∈ deployment.history moves, ∀ buyer payment,
          tradeOn collection tokenId sale.event = some (.sale buyer payment) → buyer = user := by
  constructor
  · intro bought
    constructor
    · intro onSale
      obtain ⟨between, listing, earlier, price, split, opened⟩ :=
        has_listing deployment moves collection tokenId onSale
      have listed : lists collection tokenId listing.event = true := by
        simp [lists, opened.listed]
      obtain ⟨sale, payment, next, _⟩ := bought between listing earlier split listed
      rw [nextDeal_eq_none opened.unlisted opened.unsold] at next
      cases next
    · intro sale member buyer payment sold
      obtain ⟨newer, older, split⟩ := List.append_of_mem member
      obtain ⟨between, listing, earlier, rest, listed, quiet⟩ :=
        sale_has_listing deployment moves collection tokenId newer older sale split buyer payment
          sold
      have whole : deployment.history moves = (newer ++ sale :: between) ++ listing :: earlier := by
        rw [split, rest, List.append_assoc, List.cons_append]
      obtain ⟨other, paid, next, traded⟩ := bought _ listing earlier whole listed
      have closes : nextDeal collection tokenId (newer ++ sale :: between) = some sale :=
        nextDeal_eq_sale (sells_eq_true.mpr ⟨buyer, payment, sold⟩)
          (fun receipt recent => (quiet receipt recent).1)
          fun receipt recent => (quiet receipt recent).2
      obtain rfl := Option.some.inj (closes.symm.trans next)
      rw [sold] at traded
      cases traded
      rfl
  · rintro ⟨closed, sales⟩ newer listing older split listed
    rcases listing_fate deployment moves collection tokenId newer older listing split listed with
      ⟨_, onSale⟩ | ⟨sale, next, sold⟩
    · exact absurd onSale closed
    · obtain ⟨buyer, payment, traded⟩ := sells_eq_true.mp sold
      have recent : sale ∈ newer := List.mem_reverse.mp (List.mem_of_find?_eq_some next)
      have member : sale ∈ deployment.history moves := by simp [split, recent]
      obtain rfl := sales sale member buyer payment traded
      exact ⟨sale, payment, next, traded⟩

end Matching

section View

variable (deployment : Deployment) (moves : List (Move Action)) (user : Address)
  (collection : Address) (tokenId : UInt256)

/-- Sales to one user are all sales exactly if nobody else bought. Purchases of others are the
difference of the two tallies. -/
theorem salesTo_all_iff (history : List ChainReceipt) :
    tally saleCount collection tokenId history ≤ tally (salesTo user) collection tokenId history ↔
      ∀ sale ∈ history, ∀ buyer payment,
        tradeOn collection tokenId sale.event = some (.sale buyer payment) → buyer = user := by
  induction history with
  | nil => simp [tally]
  | cons receipt rest inductionHypothesis =>
    have mine := tally_mono (salesTo_le user) collection tokenId rest
    rw [List.forall_mem_cons, ← inductionHypothesis, tally_cons, tally_cons]
    cases tradeOn collection tokenId receipt.event with
    | none => simp
    | some kind =>
      cases kind with
      | sale buyer payment =>
        by_cases same : buyer = user
        · simp [salesTo, saleCount, same]
        · simp [salesTo, saleCount, same]
          omega
      | listing | auction | bid | offer => simp [salesTo, saleCount]

/-- Every listing of a token was bought by one user exactly if the listings of the token
are as many as the sales to that user. -/
theorem bought_count_iff :
    tally listingCount collection tokenId (deployment.history moves) ≤
        tally (salesTo user) collection tokenId (deployment.history moves) ↔
      ∀ newer listing older, deployment.history moves = newer ++ listing :: older →
        lists collection tokenId listing.event = true →
          BoughtBy collection tokenId user newer := by
  have alternate := sales_and_listings deployment moves collection tokenId
  have mine := tally_mono (salesTo_le user) collection tokenId (deployment.history moves)
  rw [all_bought_iff, ← salesTo_all_iff]
  by_cases onSale : ((deployment.world moves).item collection tokenId).isOnSale = true
  · rw [if_pos onSale] at alternate
    constructor
    · omega
    · rintro ⟨closed, _⟩
      exact absurd onSale closed
  · rw [if_neg onSale] at alternate
    constructor
    · intro covered
      exact ⟨onSale, by omega⟩
    · rintro ⟨_, covered⟩
      omega

/-- The user's own purchases of a token never exceed the visits of the scan to it. Each purchase
closed a listing, and the scan finds a bought token once a listing. -/
theorem salesTo_le_visits :
    tally (salesTo user) collection tokenId (deployment.history moves) ≤
      ((deployment.world moves).marketplace.purchasedKeys user).count (collection, tokenId) := by
  have bought := buyers_exact deployment moves user collection tokenId
  have mine := tally_mono (salesTo_le user) collection tokenId (deployment.history moves)
  have alternate := sales_and_listings deployment moves collection tokenId
  have listings : ((deployment.world moves).marketplace.collectionTokenIds collection).count
      tokenId = tally listingCount collection tokenId (deployment.history moves) :=
    listings_exact deployment moves collection tokenId
  rw [purchasedKeys_count]
  split
  · omega
  · next never =>
    have none_sale : ¬ 0 < tally (salesTo user) collection tokenId (deployment.history moves) :=
      fun sale => never (bought.mpr sale)
    omega

/-- The view returns exactly if the scan visits every token as often as the user bought
it. -/
theorem fetched_iff_visits :
    (∃ items, (deployment.world moves).marketplace.fetchUserPurchasedItems user = .ok items) ↔
      ∀ collection tokenId,
        ((deployment.world moves).marketplace.purchasedKeys user).count (collection, tokenId) =
          tally (salesTo user) collection tokenId (deployment.history moves) := by
  have counter := purchaseCount_exact deployment moves user
  have visits := total₂_count ((deployment.world moves).marketplace.purchasedKeys user)
  rw [← total_tally] at counter
  constructor
  · rintro ⟨items, fetched⟩ collection tokenId
    obtain ⟨covered, _⟩ := fetchUserPurchasedItems_ok.mp fetched
    rw [counter, ← visits] at covered
    exact (total₂_eq _ _ (salesTo_le_visits deployment moves user) covered collection tokenId).symm
  · intro exact
    refine ⟨_, fetchUserPurchasedItems_ok.mpr ⟨?_, rfl⟩⟩
    rw [counter, ← visits]
    exact total₂_mono _ _ fun collection tokenId => (exact collection tokenId).le

/-- A listed token that is not on sale records its last buyer. A listing writes the zero address
there, and a sale the buyer. -/
theorem last_buyer
    (listed : 0 < ((deployment.world moves).lot collection tokenId).listings)
    (closed : ((deployment.world moves).item collection tokenId).isOnSale = false) :
    ∃ sale ∈ deployment.history moves, ∃ payment, tradeOn collection tokenId sale.event =
      some (.sale ((deployment.world moves).item collection tokenId).owner payment) := by
  refine deployment.lot_invariant moves collection tokenId
    (fun history lot => 0 < lot.listings → lot.item.isOnSale = false →
      ∃ sale ∈ history, ∃ payment,
        tradeOn collection tokenId sale.event = some (.sale lot.item.owner payment))
    (fun impossible => absurd impossible (Nat.lt_irrefl 0)) ?_ listed closed
  intro event history w after step sound inductionHypothesis listed closed
  generalize seen : tradeOn collection tokenId event = kind at step
  cases step with
  | listing => cases closed
  | sale buyer nonzero other onSale fixed held =>
    exact ⟨⟨w, event⟩, List.mem_cons_self, _, seen⟩
  | idle | auction | bid | offer =>
    obtain ⟨sale, member, payment, sold⟩ := inductionHypothesis listed closed
    exact ⟨sale, List.mem_cons_of_mem _ member, payment, sold⟩

/-- The purchase map marks exactly the tokens sold to the user. The tally of sales to the user is
positive exactly if there is one. -/
theorem bought_iff :
    (deployment.world moves).marketplace.userPurchases user collection tokenId = true ↔
      ∃ sale ∈ deployment.history moves, ∃ payment,
        tradeOn collection tokenId sale.event = some (.sale user payment) := by
  rw [buyers_exact, Nat.pos_iff_ne_zero]
  unfold tally
  rw [ne_eq, List.sum_eq_zero_iff]
  constructor
  · intro positive
    by_contra never
    refine positive fun amount member => ?_
    obtain ⟨sale, recorded, rfl⟩ := List.mem_map.mp member
    cases sold : tradeOn collection tokenId sale.event with
    | none => rfl
    | some kind =>
      cases kind with
      | sale buyer payment =>
        apply if_neg
        rintro rfl
        exact never ⟨sale, recorded, payment, sold⟩
      | listing | auction | bid | offer => rfl
  · rintro ⟨sale, recorded, payment, sold⟩ zero
    have one := zero _ (List.mem_map_of_mem recorded)
    simp [sold, salesTo] at one

/-- If the view returns, it shows only tokens of which the user bought every listing. The array
has a slot for every purchase of the user, and the scan writes one for every listing. -/
theorem fetched_bought {items : List MarketItem}
    (fetched : (deployment.world moves).marketplace.fetchUserPurchasedItems user = .ok items)
    {item : MarketItem} (member : item ∈ items) :
    ∃ key ∈ (deployment.world moves).marketplace.purchasedKeys user,
      (deployment.world moves).item key.1 key.2 = item ∧
        tally listingCount key.1 key.2 (deployment.history moves) ≤
          tally (salesTo user) key.1 key.2 (deployment.history moves) := by
  have exact := (fetched_iff_visits deployment moves user).mp ⟨items, fetched⟩
  have counter := purchaseCount_exact deployment moves user
  have visits := total₂_count ((deployment.world moves).marketplace.purchasedKeys user)
  simp only [exact] at visits
  rw [← total_tally, visits] at counter
  obtain ⟨_, rfl⟩ := fetchUserPurchasedItems_ok.mp fetched
  rw [counter, Nat.sub_self, List.replicate_zero, List.append_nil] at member
  obtain ⟨key, found, shown⟩ := List.mem_map.mp member
  refine ⟨key, found, shown, ?_⟩
  have listings : ((deployment.world moves).marketplace.collectionTokenIds key.1).count key.2 =
      tally listingCount key.1 key.2 (deployment.history moves) :=
    listings_exact deployment moves key.1 key.2
  have bought := (purchasedKeys_listed deployment moves user found).1
  rw [← exact key.1 key.2, purchasedKeys_count, if_pos bought, listings]

/-- Listings and sales alternate, hence what the purchase view guarantees: whenever it returns it
has no blank entry and shows only tokens that still count as the user's, and it returns exactly if
the user bought every listing of every token the user bought. A token cannot be sold twice without
a listing in between, which is what relates the two lists that the view reads. -/
theorem listings_and_purchases :
    (∀ collection tokenId,
      ((deployment.world moves).marketplace.collectionTokenIds collection).count tokenId =
        tally saleCount collection tokenId (deployment.history moves) +
          if ((deployment.world moves).item collection tokenId).isOnSale = true then 1 else 0) ∧
      ∀ user,
        (∀ items,
          (deployment.world moves).marketplace.fetchUserPurchasedItems user = .ok items →
            ∀ item ∈ items, item ≠ .unset ∧ item.owner = user ∧ item.isOnSale = false) ∧
        ((∃ items, (deployment.world moves).marketplace.fetchUserPurchasedItems user =
            .ok items) ↔
          ∀ collection tokenId,
            (∃ sale ∈ deployment.history moves, ∃ payment,
              tradeOn collection tokenId sale.event = some (.sale user payment)) →
            ∀ newer listing older, deployment.history moves = newer ++ listing :: older →
              lists collection tokenId listing.event = true →
                BoughtBy collection tokenId user newer) := by
  have listings : ∀ collection tokenId,
      ((deployment.world moves).marketplace.collectionTokenIds collection).count tokenId =
        tally listingCount collection tokenId (deployment.history moves) :=
    listings_exact deployment moves
  refine ⟨?_, fun user => ⟨?_, ?_⟩⟩
  · intro collection tokenId
    exact (listings collection tokenId).trans
      (sales_and_listings deployment moves collection tokenId).symm
  · intro items fetched item member
    obtain ⟨key, found, rfl, covered⟩ := fetched_bought deployment moves user fetched member
    have all := (bought_count_iff deployment moves user key.1 key.2).mp covered
    obtain ⟨closed, sales⟩ := (all_bought_iff deployment moves key.1 key.2 user).mp all
    have notOnSale := Bool.eq_false_iff.mpr closed
    have visited := (purchasedKeys_listed deployment moves user found).2
    obtain ⟨sale, recorded, payment, sold⟩ :=
      last_buyer deployment moves key.1 key.2 visited notOnSale
    exact ⟨purchasedKeys_written deployment moves user found,
      sales sale recorded _ payment sold, notOnSale⟩
  · rw [fetched_iff_visits]
    constructor
    · intro exact collection tokenId sold
      have bought := (bought_iff deployment moves user collection tokenId).mpr sold
      apply (bought_count_iff deployment moves user collection tokenId).mp
      rw [← exact, purchasedKeys_count, if_pos bought, listings]
    · intro all collection tokenId
      rw [purchasedKeys_count]
      split
      · next bought =>
        have sold := (bought_iff deployment moves user collection tokenId).mp bought
        have covered := (bought_count_iff deployment moves user collection tokenId).mpr
          (all collection tokenId sold)
        have mine := salesTo_le_visits deployment moves user collection tokenId
        rw [purchasedKeys_count, if_pos bought] at mine
        rw [listings] at mine ⊢
        exact Nat.le_antisymm covered mine
      · next never =>
        have mine := buyers_exact deployment moves user collection tokenId
        exact (Nat.eq_zero_of_not_pos fun sale => never (mine.mpr sale)).symm

end View

section Terms

/-- What an item offers: everything of it but its buyer and its bids. A sale changes the buyer and
a bid the standing bid, and neither changes these. -/
structure SaleTerms where
  tokenId : UInt256
  nftContract : Address
  seller : Address
  price : UInt256
  isAuction : Bool
  auctionEndTime : UInt256
  tokenURI : Bytes
deriving DecidableEq

/-- What of an item a seller can be held to. The fields are the item's own, under their own names. -/
def MarketItem.saleTerms (item : MarketItem) : SaleTerms :=
  ⟨item.tokenId, item.nftContract, item.seller, item.price, item.isAuction, item.auctionEndTime,
    item.tokenURI⟩

/-- The terms after the item was put up for auction. The starting price replaces the asking price;
the rest stays. -/
def SaleTerms.auctioned (terms : SaleTerms) (startingPrice auctionEndTime : UInt256) : SaleTerms :=
  { terms with isAuction := true, price := startingPrice, auctionEndTime }

variable {this collection : Address} {tokenId now : UInt256} {lot after : Lot}
  {kind : Option TradeEvent}

/-- The terms of an item on sale change only when its seller turns a listing at a fixed
price into an auction. Nobody can list it again: the marketplace holds the token. -/
theorem LotStep.saleTerms (step : LotStep this collection tokenId now lot kind after)
    (sound : lot.Sound this) (onSale : lot.item.isOnSale = true) :
    after.item.saleTerms = lot.item.saleTerms ∨
      ∃ startingPrice duration auctionEndTime,
        kind = some (.auction lot.item.seller startingPrice duration) ∧
          lot.item.isAuction = false ∧
          auctionEndTime.toNat = now.toNat + duration.toNat ∧
          after.item.saleTerms = lot.item.saleTerms.auctioned startingPrice auctionEndTime := by
  cases step with
  | listing seller price tokenURI nonzero other positive owned =>
    exact absurd (owned.symm.trans (sound.escrowed onSale)) other
  | auction startingPrice duration auctionEndTime nonzero fixed ends =>
    exact .inr ⟨startingPrice, duration, auctionEndTime, rfl, fixed, ends, rfl⟩
  | idle | sale | bid | offer => exact .inl rfl

/-- Only a sale at the asking price takes an item off sale. Neither a bid nor an auction does, and
a token on sale cannot be listed. -/
theorem LotStep.taken (step : LotStep this collection tokenId now lot kind after)
    (onSale : lot.item.isOnSale = true) (taken : after.item.isOnSale = false) :
    ∃ buyer, kind = some (.sale buyer lot.item.price) := by
  cases step with
  | sale buyer nonzero other onSale fixed held => exact ⟨buyer, rfl⟩
  | listing => cases taken
  | idle | auction | bid | offer => exact absurd (onSale.symm.trans taken) (by decide)

/-- An item on sale by auction stays as it is. It can be bid for, and a bid is no part of the
terms. -/
theorem LotStep.fixed (step : LotStep this collection tokenId now lot kind after)
    (sound : lot.Sound this) (onSale : lot.item.isOnSale = true)
    (auction : lot.item.isAuction = true) :
    after.item.isOnSale = true ∧ after.item.saleTerms = lot.item.saleTerms := by
  constructor
  · by_contra taken
    obtain ⟨buyer, rfl⟩ := step.taken onSale (Bool.eq_false_iff.mpr taken)
    cases step with
    | sale _ nonzero other _ fixed held => exact absurd (fixed.symm.trans auction) (by decide)
  · rcases step.saleTerms sound onSale with same | ⟨_, _, _, _, fixed, _⟩
    · exact same
    · exact absurd (fixed.symm.trans auction) (by decide)

/-- An auction of a token is a successful `createAuction` on it by the seller. The call names the
token and the terms that the trade records. -/
theorem auction_call {event : ChainEvent} {seller : Address} {startingPrice duration : UInt256}
    (started : tradeOn collection tokenId event =
      some (.auction seller startingPrice duration)) :
    ∃ value, event = .executed (.marketplace ⟨seller, value⟩
      (.createAuction collection tokenId startingPrice duration)) := by
  have traded := tradeOn_eq_some.mp started
  unfold trade at traded
  split at traded <;> cases traded
  exact ⟨_, rfl⟩

variable (deployment : Deployment) (moves : List (Move Action))

/-- Only the seller controls the terms of a live listing. Whatever happens next leaves them alone,
unless it is the seller's own `createAuction` on an item at a fixed price; and only a sale at the
asking price takes the item off sale. After such an auction began on an item on sale, the item
stays on sale on the new terms for ever: the seller changes them once. Proof: step by step, from
what each event does to the terms of the item, mints that are resumed included. -/
theorem seller_controls_terms :
    (∀ event after collection tokenId,
      Effective (chain deployment.address) event (deployment.world moves) after →
      ((deployment.world moves).item collection tokenId).isOnSale = true →
        ((after.item collection tokenId).saleTerms =
            ((deployment.world moves).item collection tokenId).saleTerms ∨
          ∃ msg startingPrice duration auctionEndTime,
            event = .executed (.marketplace msg
              (.createAuction collection tokenId startingPrice duration)) ∧
            msg.sender = ((deployment.world moves).item collection tokenId).seller ∧
            ((deployment.world moves).item collection tokenId).isAuction = false ∧
            auctionEndTime.toNat = (deployment.world moves).timestamp.toNat + duration.toNat ∧
            (after.item collection tokenId).saleTerms =
              ((deployment.world moves).item collection tokenId).saleTerms.auctioned
                startingPrice auctionEndTime) ∧
        ((after.item collection tokenId).isOnSale = false →
          ∃ msg, event = .executed (.marketplace msg (.createMarketSale collection tokenId)) ∧
            msg.value = ((deployment.world moves).item collection tokenId).price)) ∧
      ∀ collection tokenId newer receipt older seller startingPrice duration,
        deployment.history moves = newer ++ receipt :: older →
        tradeOn collection tokenId receipt.event =
          some (.auction seller startingPrice duration) →
        (receipt.before.item collection tokenId).isOnSale = true →
        ∃ auctionEndTime : UInt256,
          auctionEndTime.toNat = receipt.before.timestamp.toNat + duration.toNat ∧
          (∀ later ∈ newer, (later.before.item collection tokenId).isOnSale = true ∧
            (later.before.item collection tokenId).saleTerms =
              (receipt.before.item collection tokenId).saleTerms.auctioned startingPrice
                auctionEndTime) ∧
          ((deployment.world moves).item collection tokenId).isOnSale = true ∧
          ((deployment.world moves).item collection tokenId).saleTerms =
            (receipt.before.item collection tokenId).saleTerms.auctioned startingPrice
              auctionEndTime := by
  constructor
  · intro event after collection tokenId effective onSale
    have step := (deployment.change effective).lot deployment.address_ne_zero
      (deployment.registry moves) collection tokenId
    have sound := deployment.lot_sound moves collection tokenId
    constructor
    · rcases step.saleTerms sound onSale with same |
        ⟨startingPrice, duration, auctionEndTime, started, fixed, ends, terms⟩
      · exact .inl same
      · obtain ⟨value, rfl⟩ := auction_call started
        exact .inr ⟨_, startingPrice, duration, auctionEndTime, rfl, rfl, fixed, ends, terms⟩
    · intro taken
      obtain ⟨buyer, sold⟩ := step.taken onSale taken
      exact ⟨_, sale_call sold, rfl⟩
  · intro collection tokenId newer receipt older seller startingPrice duration recorded started
      onSale
    refine deployment.lot_since moves collection tokenId newer older receipt recorded
      (fun newer lot => ∃ auctionEndTime : UInt256,
        auctionEndTime.toNat = receipt.before.timestamp.toNat + duration.toNat ∧
        (∀ later ∈ newer, (later.before.item collection tokenId).isOnSale = true ∧
          (later.before.item collection tokenId).saleTerms =
            (receipt.before.item collection tokenId).saleTerms.auctioned startingPrice
              auctionEndTime) ∧
        lot.item.isOnSale = true ∧
        lot.item.saleTerms = (receipt.before.item collection tokenId).saleTerms.auctioned
          startingPrice auctionEndTime) ?_ ?_
    · intro after step sound
      rw [started] at step
      cases step with
      | auction _ _ auctionEndTime nonzero fixed ends =>
        exact ⟨auctionEndTime, ends, by simp, onSale, rfl⟩
    · rintro event newer w after step sound ⟨auctionEndTime, ends, past, live, terms⟩
      have auction : (w.lot collection tokenId).item.isAuction = true :=
        congrArg SaleTerms.isAuction terms
      obtain ⟨still, same⟩ := step.fixed sound live auction
      refine ⟨auctionEndTime, ends, ?_, still, same.trans terms⟩
      exact List.forall_mem_cons.mpr ⟨⟨live, terms⟩, past⟩

end Terms

end OpenBeach
