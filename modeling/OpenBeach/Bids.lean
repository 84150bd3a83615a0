import OpenBeach.Custody

/-!
# Bids

The bids on a token form a bid book: a bid is placed, a listing clears the standing
bid, and nothing else touches the book. The ledger results are the claims of that
book. Clearing is harmless as long as no bid stands, which fails once an auction
goes on after its token was sold.
-/

namespace OpenBeach

open Function Mappings NestedCalls BidBook

/-- The bid an event places on the token. Only bids that were accepted are events at all. -/
def bidOn (collection : Address) (tokenId : UInt256) (event : ChainEvent) :
    Option (Address × Nat) :=
  match tradeOn collection tokenId event with
  | some (.bid bidder value) => some (bidder, value.toNat)
  | _ => none

/-- The accepted bids on the token, most recent first. Bids of several auctions of one token are
in one list. -/
def bidsOn (collection : Address) (tokenId : UInt256) (history : List ChainReceipt) :
    List (Address × Nat) :=
  history.filterMap fun receipt => bidOn collection tokenId receipt.event

/-- What a trade does to the book. A listing forgets the standing bid; sales, offers and new
auctions leave the book alone. -/
def bookAfter (book : Book Address) : Option TradeEvent → Book Address
  | some (.bid bidder value) => book.place bidder value.toNat
  | some (.listing _ _ _) => book.clear
  | _ => book

section Books

variable {this collection : Address} {tokenId now : UInt256} {lot after : Lot}
  {kind : Option TradeEvent}

/-- The contract's bid fields and returns are a bid book. So what is known of bid books is known
of the contract. -/
theorem LotStep.book (step : LotStep this collection tokenId now lot kind after) :
    after.book = bookAfter lot.book kind := by
  cases step with
  | bid bidder value returns nonzero auction running higher credited =>
    ext1
    · simp [Lot.book, bookAfter, Book.place, nonzero]
    · funext account
      exact credited account
  | listing => rfl
  | idle | sale | auction | offer => rfl

/-- The standing bid in a sound lot, read off the item. The zero account is no bidder, and the bid
is zero if there is none. -/
theorem Lot.Sound.held (sound : lot.Sound this) (account : Address) :
    lot.book.held account =
      if lot.item.highestBidder = account then lot.item.highestBid.toNat else 0 := by
  by_cases vacant : lot.item.highestBidder = 0
  · have zero : lot.item.highestBid = 0 := sound.vacant.mp vacant
    simp [Lot.book, Book.held, vacant, zero]
  · simp [Lot.book, Book.held, vacant]

/-- The claim of an account in a sound lot: its returns and its standing bid. The left side is
what an account would read off the contract. -/
theorem World.owed_eq_claim (w : World) (sound : (w.lot collection tokenId).Sound this)
    (account : Address) :
    (w.marketplace.pendingReturns collection tokenId account).toNat +
        (if (w.item collection tokenId).highestBidder = account
          then (w.item collection tokenId).highestBid.toNat else 0) =
      (w.lot collection tokenId).book.claim account := by
  rw [Book.claim, sound.held]
  rfl

/-- The amount to beat in a sound lot, read off the item. So the code compares with the amount to
beat. -/
theorem Lot.Sound.highest (sound : lot.Sound this) :
    lot.book.highest = lot.item.highestBid.toNat := by
  by_cases vacant : lot.item.highestBidder = 0
  · have zero : lot.item.highestBid = 0 := sound.vacant.mp vacant
    simp [Lot.book, Book.highest, vacant, zero]
  · simp [Lot.book, Book.highest, vacant]

/-- Outside an auction no bid stands. A sale ends no auction, and a listing clears the bid. -/
theorem Lot.Sound.no_bid (sound : lot.Sound this) (fixed : lot.item.isAuction = false) :
    lot.book.standing = none := by
  have vacant : lot.item.highestBidder = 0 := sound.vacant.mpr (sound.unbid fixed)
  simp [Lot.book, vacant]

end Books

section Ledger

variable (deployment : Deployment) (moves : List (Move Action)) (collection : Address)
  (tokenId : UInt256)

/-- What listings of the token cleared of the account's standing bids. Nobody can ever claim it. -/
def droppedOn (account : Address) (history : List ChainReceipt) : Nat :=
  (history.map fun receipt =>
    if lists collection tokenId receipt.event = true then
      (receipt.before.lot collection tokenId).book.held account else 0).sum

/-- The ledger equation: claims and cleared bids account for all payments. Proof: by induction on
the run, with the ledger law of bid books at each step. -/
theorem claims_exact (account : Address) :
    ((deployment.world moves).lot collection tokenId).book.claim account +
        droppedOn collection tokenId account (deployment.history moves) =
      paidBy account (bidsOn collection tokenId (deployment.history moves)) := by
  refine deployment.lot_invariant moves collection tokenId
    (fun history lot => lot.book.claim account + droppedOn collection tokenId account history =
      paidBy account (bidsOn collection tokenId history)) (by rfl) ?_
  intro event history w after step sound inductionHypothesis
  rw [step.book]
  generalize seen : tradeOn collection tokenId event = kind at step
  cases step with
  | bid bidder value returns nonzero auction running higher credited =>
    simp only [bookAfter, Book.claim_place, droppedOn, lists, bidsOn, bidOn, seen,
      List.map_cons, List.sum_cons, List.filterMap_cons, paidBy_cons] at *
    simp only [Bool.false_eq_true, if_false]
    omega
  | listing seller price tokenURI nonzero other positive owned =>
    have cleared := (w.lot collection tokenId).book.claim_clear account
    simp only [bookAfter, droppedOn, lists, bidsOn, bidOn, seen, List.map_cons, List.sum_cons,
      List.filterMap_cons, if_true] at *
    omega
  | idle | sale | auction | offer =>
    simp only [bookAfter, droppedOn, lists, bidsOn, bidOn, seen, List.map_cons, List.sum_cons,
      List.filterMap_cons, Bool.false_eq_true, if_false, Nat.zero_add] at *
    exact inductionHypothesis

/-- Nothing was cleared from anybody exactly if no listing met a standing bid. A standing bid has
a bidder, who would have lost it. -/
theorem nothing_dropped :
    (∀ account, droppedOn collection tokenId account (deployment.history moves) = 0) ↔
      ∀ receipt ∈ deployment.history moves,
        lists collection tokenId receipt.event = true →
          (receipt.before.item collection tokenId).highestBid = 0 := by
  constructor
  · intro none_dropped receipt member listed
    have sound := (deployment.receipt_step moves collection tokenId member).1
    have zero := List.sum_eq_zero_iff.mp
      (none_dropped (receipt.before.item collection tokenId).highestBidder) _
      (List.mem_map_of_mem member)
    rw [if_pos listed, sound.held] at zero
    exact Word.toNat_eq_zero.mp (by simpa [World.lot] using zero)
  · intro unbid account
    apply List.sum_eq_zero_iff.mpr
    intro amount member
    obtain ⟨receipt, recorded, rfl⟩ := List.mem_map.mp member
    split
    · next listed =>
      have sound := (deployment.receipt_step moves collection tokenId recorded).1
      have zero : (receipt.before.lot collection tokenId).item.highestBid = 0 :=
        unbid receipt recorded listed
      rw [sound.held, zero]
      simp
    · rfl

/-- The bid ledger of a token is exact, for every account, in exactly the runs in which no listing
of the token overwrote a standing bid. A listing writes a new record over the old one, and the bid
that stood there is not credited to anybody. In every other step claims grow by what is paid. -/
theorem bid_ledger_exact :
    (∀ account,
      ((deployment.world moves).marketplace.pendingReturns collection tokenId
          account).toNat +
        (if ((deployment.world moves).item collection tokenId).highestBidder = account
          then ((deployment.world moves).item collection tokenId).highestBid.toNat
          else 0) =
      paidBy account (bidsOn collection tokenId (deployment.history moves))) ↔
    ∀ receipt ∈ deployment.history moves,
      lists collection tokenId receipt.event = true →
        (receipt.before.item collection tokenId).highestBid = 0 := by
  rw [← nothing_dropped]
  apply forall_congr'
  intro account
  have exact := claims_exact deployment moves collection tokenId account
  rw [World.owed_eq_claim _ (deployment.lot_sound moves collection tokenId), ← exact]
  omega

/-- Account 13 bids on the token account 12 bought, and account 12 lists it again. It has to
approve the marketplace again for that. -/
def relistedUnderBid : List (Move Action) :=
  soldThenAuctioned ++
    [.act (.collection 12 100 (.approve 1 1)),
      .act (.marketplace ⟨12, NFTMarketplace.initialListingFee⟩ (.createMarketItem 100 1 2000))]

/-- A bid that vanished: account 13 paid 7 wei and the ledger knows of none. In between, account
12 listed the token again, which wrote over the standing bid. -/
theorem bid_dropped :
    let w := Deployment.sample.world relistedUnderBid
    paidBy 13 (bidsOn 100 1 (Deployment.sample.history relistedUnderBid)) = 7 ∧
      (w.marketplace.pendingReturns 100 1 13).toNat +
        (if (w.item 100 1).highestBidder = 13 then (w.item 100 1).highestBid.toNat else 0) = 0 := by
  decide +kernel

end Ledger

section Reserve

variable (deployment : Deployment) (moves : List (Move Action)) (collection : Address)
  (tokenId : UInt256)

/-- A bid on an item with a bidder is above a standing bid that met the price. -/
theorem LotStep.reserve {this collection : Address} {tokenId now : UInt256} {lot after : Lot}
    {kind : Option TradeEvent} (step : LotStep this collection tokenId now lot kind after)
    (sound : lot.Sound this)
    (met : lot.item.isAuction = true → lot.item.highestBidder ≠ 0 →
      lot.item.price ≤ lot.item.highestBid)
    (opening : ∀ bidder value, kind = some (.bid bidder value) → lot.item.highestBidder = 0 →
      lot.item.price ≤ value) :
    (after.item.isAuction = true → after.item.highestBidder ≠ 0 →
        after.item.price ≤ after.item.highestBid) ∧
      ∀ bidder value, kind = some (.bid bidder value) → lot.item.price ≤ value := by
  cases step with
  | bid bidder value returns nonzero auction running higher credited =>
    have reached : lot.item.price ≤ value := by
      by_cases vacant : lot.item.highestBidder = 0
      · exact opening bidder value rfl vacant
      · have standing := Word.le_def.mp (met auction vacant)
        have above := Word.lt_def.mp higher
        exact Word.le_def.mpr (by omega)
    refine ⟨fun _ _ => reached, ?_⟩
    rintro bidder value ⟨⟩
    exact reached
  | listing seller price tokenURI nonzero other positive owned =>
    refine ⟨?_, by simp⟩
    intro impossible
    cases impossible
  | auction startingPrice duration auctionEndTime nonzero fixed ends =>
    refine ⟨?_, by simp⟩
    intro _ standing
    exact absurd (sound.vacant.mpr (sound.unbid fixed)) standing
  | idle | sale | offer => exact ⟨met, by simp⟩

/-- The starting price is a reserve in exactly the runs in which every opening bid pays at least
the price. The code compares a bid with the standing bid alone, so it is the first bid of an
auction that decides. -/
theorem reserve_met :
    ((∀ w ∈ (deployment.run moves).current.states,
        (w.item collection tokenId).isAuction = true →
        (w.item collection tokenId).highestBidder ≠ 0 →
          (w.item collection tokenId).price ≤ (w.item collection tokenId).highestBid) ∧
      ∀ receipt ∈ deployment.history moves, ∀ bidder value,
        tradeOn collection tokenId receipt.event = some (.bid bidder value) →
          (receipt.before.item collection tokenId).price ≤ value) ↔
    ∀ receipt ∈ deployment.history moves, ∀ bidder value,
      tradeOn collection tokenId receipt.event = some (.bid bidder value) →
        (receipt.before.item collection tokenId).highestBidder = 0 →
          (receipt.before.item collection tokenId).price ≤ value := by
  constructor
  · rintro ⟨_, paid⟩ receipt member bidder value placed _
    exact paid receipt member bidder value placed
  · intro opening
    have met := deployment.lot_states moves collection tokenId
      (fun receipt => ∀ bidder value,
        tradeOn collection tokenId receipt.event = some (.bid bidder value) →
          (receipt.before.item collection tokenId).highestBidder = 0 →
            (receipt.before.item collection tokenId).price ≤ value)
      (fun lot => lot.item.isAuction = true → lot.item.highestBidder ≠ 0 →
        lot.item.price ≤ lot.item.highestBid)
      (by
        intro impossible
        cases impossible)
      (fun receipt after step sound opening met => (step.reserve sound met opening).1) opening
    refine ⟨met, ?_⟩
    intro receipt member bidder value placed
    obtain ⟨sound, after, step⟩ := deployment.receipt_step moves collection tokenId member
    have past : receipt.before ∈ (deployment.run moves).current.states :=
      List.mem_cons_of_mem _ (List.mem_map_of_mem member)
    have above := step.reserve sound (met receipt.before past) (opening receipt member)
    exact above.2 bidder value placed

/-- Account 11 auctions its listed token from 500 wei on, and a bid of 1 wei is taken. -/
def lowOpeningBid : List (Move Action) :=
  Deployment.sampleListing ++
    [.act (.marketplace ⟨11, 0⟩ (.createAuction 100 1 500 100)),
      .act (.marketplace ⟨13, 1⟩ (.placeBid 100 1))]

/-- There the highest bid is below the price that the auction was started at. Nobody had bid
before. -/
theorem opening_bid_below_price :
    let item := (Deployment.sample.world lowOpeningBid).item 100 1
    item.isAuction = true ∧ item.highestBidder = 13 ∧ item.price = 500 ∧ item.highestBid = 1 := by
  decide +kernel

end Reserve

section Runs

/-- The terms of an auction that is on. The end is kept as a number, since it is a sum that was
checked. -/
structure Terms (seller : Address) (startingPrice : UInt256) (endTime : Nat) (item : MarketItem) :
    Prop where
  auction : item.isAuction = true
  seller : item.seller = seller
  price : item.price = startingPrice
  ends : item.auctionEndTime.toNat = endTime

/-- How an auction stands after the given later events: started without bids, its terms
never changed nor started again, and the bids are accepted bids on top of the returns
at its start. -/
structure AuctionRun (collection : Address) (tokenId : UInt256) (seller : Address)
    (startingPrice : UInt256) (endTime : Nat) (start : World) (newer : List ChainReceipt)
    (w : World) : Prop where
  terms : Terms seller startingPrice endTime (w.item collection tokenId)
  past : ∀ receipt ∈ newer,
    Terms seller startingPrice endTime (receipt.before.item collection tokenId)
  once : ∀ receipt ∈ newer, ∀ other price duration,
    tradeOn collection tokenId receipt.event ≠ some (.auction other price duration)
  timely : ∀ receipt ∈ newer, ∀ bid, bidOn collection tokenId receipt.event = some bid →
    receipt.before.timestamp.toNat < endTime
  rising : ((bidsOn collection tokenId newer).reverse.map Prod.snd).Pairwise (· < ·)
  unbid : bidsOn collection tokenId newer = [] →
    (w.item collection tokenId).highestBidder = 0 ∧ (w.item collection tokenId).highestBid = 0
  last : ∀ bid, (bidsOn collection tokenId newer).head? = some bid →
    (w.item collection tokenId).highestBidder = bid.1 ∧
      (w.item collection tokenId).highestBid.toNat = bid.2
  highest : ∀ bid ∈ bidsOn collection tokenId newer,
    bid.2 ≤ (w.item collection tokenId).highestBid.toNat
  vacant : (w.item collection tokenId).highestBidder = 0 ↔
    (w.item collection tokenId).highestBid = 0
  returns : ∀ account,
    (w.marketplace.pendingReturns collection tokenId account).toNat +
        (if (w.item collection tokenId).highestBidder = account
          then (w.item collection tokenId).highestBid.toNat else 0) =
      (start.marketplace.pendingReturns collection tokenId account).toNat +
        paidBy account (bidsOn collection tokenId newer)

variable {this collection : Address} {tokenId now : UInt256} {lot after : Lot}
  {kind : Option TradeEvent} {seller : Address} {startingPrice : UInt256} {endTime : Nat}

/-- Only a new listing changes the terms of an auction that is on. A second auction is refused
while one is on. -/
theorem LotStep.terms (step : LotStep this collection tokenId now lot kind after)
    (terms : Terms seller startingPrice endTime lot.item)
    (unlisted : ∀ other price fee, kind ≠ some (.listing other price fee)) :
    Terms seller startingPrice endTime after.item := by
  obtain ⟨auction, same_seller, price, ends⟩ := terms
  cases step with
  | listing => exact absurd rfl (unlisted _ _ _)
  | sale buyer nonzero other onSale fixed held =>
    exact absurd (fixed.symm.trans auction) (by decide)
  | auction _ _ _ nonzero fixed => exact absurd (fixed.symm.trans auction) (by decide)
  | idle | bid | offer => exact ⟨auction, same_seller, price, ends⟩

/-- The bids of an event and of those before it. Histories grow at the front, and so do lists of
bids. -/
theorem bidsOn_cons (collection : Address) (tokenId : UInt256) (w : World) (event : ChainEvent)
    (history : List ChainReceipt) :
    bidsOn collection tokenId (⟨w, event⟩ :: history) =
      (bidOn collection tokenId event).toList ++ bidsOn collection tokenId history := by
  cases placed : bidOn collection tokenId event with
  | none => simp [bidsOn, placed]
  | some bid => simp [bidsOn, placed]

/-- While an auction is on, the book takes accepted bids and nothing else. Anything else would be
a listing, which is excluded. -/
theorem LotStep.bidding {start : Book Address} {history : List ChainReceipt} {w : World}
    {event : ChainEvent}
    (step : LotStep this collection tokenId now lot (tradeOn collection tokenId event) after)
    (sound : lot.Sound this) (unlisted : lists collection tokenId event = false)
    (bidding : Bidding start (bidsOn collection tokenId history) lot.book) :
    Bidding start (bidsOn collection tokenId (⟨w, event⟩ :: history)) after.book := by
  rw [step.book, bidsOn_cons]
  have other := lists_eq_false.mp unlisted
  unfold bidOn
  generalize tradeOn collection tokenId event = kind at step other
  cases step with
  | bid bidder value returns nonzero auction running higher credited =>
    have above : lot.book.highest < value.toNat := by
      rw [sound.highest]
      exact Word.lt_def.mp higher
    exact .bid bidding bidder value.toNat above
  | listing => exact absurd rfl (other _ _ _)
  | idle | sale | auction | offer => exact bidding

/-- The part of an auction's run that its steps carry along. The laws of bid books turn it into
what is said of the whole auction. -/
structure Running (collection : Address) (tokenId : UInt256) (seller : Address)
    (startingPrice : UInt256) (endTime : Nat) (start : World) (newer : List ChainReceipt)
    (lot : Lot) : Prop where
  terms : Terms seller startingPrice endTime lot.item
  past : ∀ receipt ∈ newer,
    Terms seller startingPrice endTime (receipt.before.item collection tokenId)
  bidding : Bidding (start.lot collection tokenId).book (bidsOn collection tokenId newer) lot.book

/-- A successful `createAuction` starts it. It begins without bids, since none stands outside an
auction. -/
theorem LotStep.running {start : World} {duration : UInt256}
    (step : LotStep this collection tokenId start.timestamp (start.lot collection tokenId)
      (some (.auction seller startingPrice duration)) after) :
    Running collection tokenId seller startingPrice
      (start.timestamp.toNat + duration.toNat) start [] after := by
  have book : after.book = (start.lot collection tokenId).book := step.book
  refine ⟨?_, by simp, book ▸ .start⟩
  cases step with
  | auction _ _ auctionEndTime nonzero fixed ends => exact ⟨rfl, rfl, rfl, ends⟩

/-- The laws of bid books make it the run of an auction. Rising bids, the last one and what is
owed are facts about the book. -/
theorem Running.auctionRun {start w : World} {newer : List ChainReceipt}
    (running : Running collection tokenId seller startingPrice endTime start newer
      (w.lot collection tokenId))
    (sound : (w.lot collection tokenId).Sound this)
    (started : (start.lot collection tokenId).Sound this)
    (fixed : (start.item collection tokenId).isAuction = false)
    (steps : ∀ receipt ∈ newer, ∃ after, LotStep this collection tokenId receipt.before.timestamp
      (receipt.before.lot collection tokenId) (tradeOn collection tokenId receipt.event) after) :
    AuctionRun collection tokenId seller startingPrice endTime start newer w := by
  obtain ⟨terms, past, bidding⟩ := running
  have opening : (start.lot collection tokenId).book.standing = none := started.no_bid fixed
  have standing := bidding.standing
  rw [opening, Option.or_none] at standing
  refine
    { terms, past
      once := ?_
      timely := ?_
      rising := bidding.rising
      unbid := ?_
      last := ?_
      highest := ?_
      vacant := sound.vacant
      returns := ?_ }
  · intro receipt member other price duration again
    obtain ⟨after, step⟩ := steps receipt member
    rw [again] at step
    cases step with
    | auction _ _ auctionEndTime nonzero fixed ends =>
      exact absurd (fixed.symm.trans (past receipt member).auction) (by decide)
  · intro receipt member bid placed
    obtain ⟨after, step⟩ := steps receipt member
    unfold bidOn at placed
    generalize tradeOn collection tokenId receipt.event = kind at step placed
    cases step with
    | bid bidder value returns nonzero auction running higher credited =>
      have ends : (receipt.before.lot collection tokenId).item.auctionEndTime.toNat = endTime :=
        (past receipt member).ends
      rw [← ends]
      exact Word.lt_def.mp running
    | idle | listing | sale | auction | offer => cases placed
  · intro none_placed
    rw [none_placed] at standing
    have vacant : (w.item collection tokenId).highestBidder = 0 := by
      by_contra occupied
      simp [Lot.book, World.lot, occupied] at standing
    exact ⟨vacant, sound.vacant.mp vacant⟩
  · intro bid first
    rw [first] at standing
    by_cases vacant : (w.item collection tokenId).highestBidder = 0
    · simp [Lot.book, World.lot, vacant] at standing
    · obtain rfl : ((w.item collection tokenId).highestBidder,
          (w.item collection tokenId).highestBid.toNat) = bid := by
        simpa [Lot.book, World.lot, vacant] using standing
      exact ⟨rfl, rfl⟩
  · intro bid member
    have bound := bidding.highest_bound bid member
    rw [sound.highest] at bound
    exact bound
  · intro account
    have claim := bidding.claim account
    rw [World.owed_eq_claim w sound, claim, Book.claim, Book.held, opening]
    rfl

variable (deployment : Deployment) (moves : List (Move Action)) (collection : Address)
  (tokenId : UInt256)

/-- From a successful `createAuction` to the next listing of the token, whatever else happens, the
auction runs as an ascending auction on fixed terms. Proof: every event of the run is a step of
the lot; while the token is not listed, a step either is a bid above the standing one or leaves
the auction as it is. -/
theorem auction_run (newer older : List ChainReceipt) (receipt : ChainReceipt)
    (recorded : (deployment.history moves) = newer ++ receipt :: older)
    (seller : Address) (startingPrice duration : UInt256)
    (started : tradeOn collection tokenId receipt.event =
      some (.auction seller startingPrice duration))
    (unlisted : ∀ later ∈ newer, lists collection tokenId later.event = false) :
    (∀ after, Effective (chain deployment.address) receipt.event receipt.before after →
      AuctionRun collection tokenId seller startingPrice
        (receipt.before.timestamp.toNat + duration.toNat) receipt.before [] after) ∧
      AuctionRun collection tokenId seller startingPrice
        (receipt.before.timestamp.toNat + duration.toNat) receipt.before newer
        (deployment.world moves) := by
  have member : receipt ∈ deployment.history moves := by simp [recorded]
  have registry := deployment.receipt_registry moves member
  obtain ⟨sound, _, begun⟩ := deployment.receipt_step moves collection tokenId member
  rw [started] at begun
  have fixed : (receipt.before.item collection tokenId).isAuction = false := by
    cases begun with
    | auction _ _ auctionEndTime nonzero fixed ends => exact fixed
  constructor
  · intro after effective
    have step := (deployment.change effective).lot deployment.address_ne_zero registry collection
      tokenId
    have kept := step.sound sound
    rw [started] at step
    exact step.running.auctionRun kept sound fixed (by simp)
  · have running := deployment.lot_since moves collection tokenId newer older receipt recorded
      (fun newer lot => (∀ later ∈ newer, lists collection tokenId later.event = false) →
        Running collection tokenId seller startingPrice
          (receipt.before.timestamp.toNat + duration.toNat) receipt.before newer lot)
      (by
        intro after step sound _
        rw [started] at step
        exact step.running)
      (by
        intro event newer w after step sound inductionHypothesis unlisted
        have here := unlisted ⟨w, event⟩ List.mem_cons_self
        obtain ⟨terms, past, bidding⟩ := inductionHypothesis
          fun later member => unlisted later (List.mem_cons_of_mem _ member)
        refine ⟨step.terms terms (lists_eq_false.mp here), ?_, step.bidding sound here bidding⟩
        intro later member
        rcases List.mem_cons.mp member with rfl | member
        · exact terms
        · exact past later member)
      unlisted
    apply running.auctionRun (deployment.lot_sound moves collection tokenId) sound fixed
    intro later member
    have whole : later ∈ deployment.history moves := by simp [recorded, member]
    exact (deployment.receipt_step moves collection tokenId whole).2

/-- Account 13 bids on the auction, account 12 outbids it, and time passes. The auction began at
500 wei. -/
def biddenAuction : List (Move Action) :=
  Deployment.sampleListing ++
    [.act (.marketplace ⟨11, 0⟩ (.createAuction 100 1 500 100)),
      .act (.marketplace ⟨13, 700⟩ (.placeBid 100 1)),
      .act (.nextBlock 1050),
      .act (.marketplace ⟨12, 800⟩ (.placeBid 100 1))]

/-- The auction of account 11, from its start to the second bid on it. It is run up to a state in
which it could still go on. -/
theorem auction_run_bidden :
    ∃ receipt ∈ Deployment.sample.history biddenAuction,
      AuctionRun 100 1 11 500 1100 receipt.before
        ((Deployment.sample.history biddenAuction).take 3)
        (Deployment.sample.world biddenAuction) := by
  have started : 3 < (Deployment.sample.history biddenAuction).length := by decide +kernel
  exact ⟨_, List.get_mem _ ⟨3, started⟩,
    (auction_run Deployment.sample biddenAuction 100 1
      ((Deployment.sample.history biddenAuction).take 3)
      ((Deployment.sample.history biddenAuction).drop 4)
      ((Deployment.sample.history biddenAuction).get ⟨3, started⟩) (by rfl) 11 500 100 (by rfl)
      (by decide +kernel)).2⟩

end Runs

end OpenBeach
