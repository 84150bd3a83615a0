import Mathlib.Algebra.Order.BigOperators.Group.List
import OpenBeach.Bids

/-!
# The marketplace's ether

Ether enters with listings, bids and offers and leaves only with a sale, which pays
on what it received. The balance is therefore the sum of what the events of the run
paid in, and each part of the contract's storage accounts for one kind of event:
the totals over all tokens are double counts of the events of the run.
-/

namespace OpenBeach

open Function Mappings NestedCalls BidBook

/-- What a measure of trades adds up to over the trades of one token. -/
def tally (measure : TradeEvent → Nat) (collection : Address) (tokenId : UInt256)
    (history : List ChainReceipt) : Nat :=
  (history.map fun receipt => (tradeOn collection tokenId receipt.event).elim 0 measure).sum

/-- What it adds up to over all trades. Trades of all tokens of all collections are counted. -/
def tallyAll (measure : TradeEvent → Nat) (history : List ChainReceipt) : Nat :=
  (history.map fun receipt => (trade receipt.event).elim 0 fun traded => measure traded.2).sum

/-- Ether brought by a bid. The value is the whole bid, not what it exceeds the last one by. -/
def bidValue : TradeEvent → Nat
  | .bid _ value => value.toNat
  | _ => 0

/-- Ether brought by an offer. Each offer brings its own ether. -/
def offerValue : TradeEvent → Nat
  | .offer _ value => value.toNat
  | _ => 0

/-- Counts listings. Each listing is one entry of a list of numbers. -/
def listingCount : TradeEvent → Nat
  | .listing _ _ _ => 1
  | _ => 0

/-- Ether that a trade leaves in the marketplace. A sale passes on all that it brings. -/
def kept : TradeEvent → Nat
  | .listing _ _ _ => NFTMarketplace.initialListingFee.toNat
  | .sale _ _ => 0
  | .auction _ _ _ => 0
  | .bid _ value => value.toNat
  | .offer _ value => value.toNat

section Tallies

/-- Totalled over all tokens, the trades of each are all trades. Each trade is of one token, so it
is counted once. -/
theorem total_tally (measure : TradeEvent → Nat) (history : List ChainReceipt) :
    total₂ (fun collection tokenId => tally measure collection tokenId history) =
      tallyAll measure history := by
  have shares : (fun collection tokenId => tally measure collection tokenId history) =
      share (fun receipt : ChainReceipt => (trade receipt.event).map Prod.fst)
        (fun receipt => (trade receipt.event).elim 0 fun traded => measure traded.2) history := by
    funext collection tokenId
    unfold tally share
    congr 1
    apply List.map_congr_left
    intro receipt _
    cases seen : trade receipt.event with
    | none => simp [tradeOn, seen]
    | some traded =>
      by_cases same : traded.1 = (collection, tokenId) <;> simp [tradeOn, seen, same]
  rw [shares, total₂_share]
  · rfl
  · intro receipt quiet
    rw [Option.map_eq_none_iff.mp quiet]
    rfl

/-- What happened adds up event by event; events that are no trades add nothing. Inductions over
histories use it at every step. -/
theorem tallyAll_cons (measure : TradeEvent → Nat) (receipt : ChainReceipt)
    (history : List ChainReceipt) :
    tallyAll measure (receipt :: history) =
      ((trade receipt.event).elim 0 fun traded => measure traded.2) + tallyAll measure history :=
  rfl

/-- A measure below another has the smaller tally of each token. The measures are compared trade
by trade. -/
theorem tally_mono {measure bound : TradeEvent → Nat} (below : ∀ kind, measure kind ≤ bound kind)
    (collection : Address) (tokenId : UInt256) (history : List ChainReceipt) :
    tally measure collection tokenId history ≤ tally bound collection tokenId history := by
  apply List.sum_le_sum
  intro receipt _
  cases tradeOn collection tokenId receipt.event with
  | none => exact Nat.le_refl 0
  | some kind => exact below kind

/-- It has the smaller tally of all tokens. It is the same argument, without a token. -/
theorem tallyAll_mono {measure bound : TradeEvent → Nat} (below : ∀ kind, measure kind ≤ bound kind)
    (history : List ChainReceipt) : tallyAll measure history ≤ tallyAll bound history := by
  apply List.sum_le_sum
  intro receipt _
  cases trade receipt.event with
  | none => exact Nat.le_refl 0
  | some traded => exact below traded.2

/-- A trade leaves its fee, its offer or its bid. No trade leaves more than one of the three. -/
theorem kept_eq (kind : TradeEvent) :
    kept kind = NFTMarketplace.initialListingFee.toNat * listingCount kind + offerValue kind +
      bidValue kind := by
  cases kind <;> simp [kept, listingCount, offerValue, bidValue]

/-- What trades leave in the marketplace is fees, offers and bids. The equation for one trade is
summed over the history. -/
theorem tallyAll_kept (history : List ChainReceipt) :
    tallyAll kept history = NFTMarketplace.initialListingFee.toNat * tallyAll listingCount history +
      tallyAll offerValue history + tallyAll bidValue history := by
  induction history with
  | nil => rfl
  | cons receipt rest inductionHypothesis =>
    simp only [tallyAll_cons, inductionHypothesis, Nat.mul_add]
    cases trade receipt.event with
    | none => simp
    | some traded =>
      have split := kept_eq traded.2
      simp only [Option.elim_some]
      omega

variable (deployment : Deployment) (moves : List (Move Action)) (collection : Address)
  (tokenId : UInt256)

/-- A quantity of a lot that every trade raises by its measure is the tally of the
trades. -/
theorem tally_exact (quantity : Lot → Nat) (measure : TradeEvent → Nat)
    (base : quantity .unset = 0)
    (raises : ∀ now lot kind after,
      LotStep deployment.address collection tokenId now lot kind after →
      quantity after = quantity lot + kind.elim 0 measure) :
    quantity ((deployment.world moves).lot collection tokenId) =
      tally measure collection tokenId (deployment.history moves) := by
  refine deployment.lot_invariant moves collection tokenId
    (fun history lot => quantity lot = tally measure collection tokenId history) base ?_
  intro event history w after step sound inductionHypothesis
  rw [raises _ _ _ _ step, inductionHypothesis]
  exact Nat.add_comm _ _

/-- A token is listed as often as the record of listings names it. Nothing takes a number out of
the list again. -/
theorem listings_exact :
    ((deployment.world moves).lot collection tokenId).listings =
      tally listingCount collection tokenId (deployment.history moves) := by
  apply tally_exact deployment moves collection tokenId Lot.listings listingCount rfl
  intro now lot kind after step
  cases step <;> rfl

/-- The stored offers are the offers made. Offers are not taken back, not even by a sale. -/
theorem offers_exact :
    ((((deployment.world moves).lot collection tokenId).offers).map
        fun offer => offer.price.toNat).sum =
      tally offerValue collection tokenId (deployment.history moves) := by
  apply tally_exact deployment moves collection tokenId
    (fun lot => (lot.offers.map fun offer => offer.price.toNat).sum) offerValue rfl
  intro now lot kind after step
  cases step with
  | offer buyer value onSale fixed positive => simp [offerValue]
  | idle | listing | sale | auction | bid => rfl

/-- The bids on a token, added up. The list of bids and the tally are two ways to read one
history. -/
theorem bids_tally (history : List ChainReceipt) :
    ((bidsOn collection tokenId history).map Prod.snd).sum =
      tally bidValue collection tokenId history := by
  induction history with
  | nil => rfl
  | cons receipt rest inductionHypothesis =>
    rw [bidsOn_cons, List.map_append, List.sum_append, inductionHypothesis]
    unfold tally
    rw [List.map_cons, List.sum_cons]
    congr 1
    unfold bidOn
    cases tradeOn collection tokenId receipt.event with
    | none => rfl
    | some kind => cases kind <;> simp [bidValue]

end Tallies

section Balance

variable {this : Address} {w after : World} {event : ChainEvent}

/-- What an event adds to the marketplace's balance. What its own calls pay out is already set
off. -/
def income (this : Address) (event : ChainEvent) : Nat :=
  ((trade event).elim 0 fun traded => kept traded.2) + forcedEther this event

/-- The balance grows by the income of the event. A sale pays on what it received. No change takes
anything from it. -/
theorem Change.balance (change : Change this w event after) (registry : Registry this w) :
    after.balance this = w.balance this + income this event := by
  cases change with
  | listed msg collection tokenId price s result outside funded unlocked active positive fee found
      moved =>
    have other := (outside_iff.mp outside).2.1
    have paid : msg.value = NFTMarketplace.initialListingFee := fee.trans registry.fee
    simp [income, trade, kept, forcedEther, paid, movedBalance_target w.balance _ other]
  | sold msg collection tokenId s result count outside funded unlocked onSale fixed price accepts
      found moved counted =>
    have other := (outside_iff.mp outside).2.1
    have seller : this ≠ (w.item collection tokenId).seller := ne_of_accepts accepts
    have received := movedBalance_target w.balance msg.value.toNat other
    have paid := movedBalance_source (movedBalance w.balance msg.sender this msg.value.toNat)
      msg.value.toNat seller
    simp only [income, trade, kept, forcedEther, Option.elim_some]
    omega
  | bid msg collection tokenId returns outside =>
    have other := (outside_iff.mp outside).2.1
    simp [income, trade, kept, forcedEther, movedBalance_target w.balance _ other]
  | offered msg collection tokenId outside =>
    have other := (outside_iff.mp outside).2.1
    simp [income, trade, kept, forcedEther, movedBalance_target w.balance _ other]
  | registered => simp [income, trade, forcedEther]
  | auctioned => simp [income, trade, kept, forcedEther]
  | tokens _ collection s result collections quiet unforced =>
    simp [income, quiet, unforced]
  | quiet _ owner categories categoryExists accounts balance timestamp quiet conserved received =>
    simp [income, quiet, received]

/-- No event creates or destroys ether. Ether only moves between accounts. -/
theorem Change.supply (change : Change this w event after) :
    total after.balance = total w.balance := by
  cases change with
  | listed msg collection tokenId price s result outside funded =>
    exact total_movedBalance w.balance msg.sender this msg.value.toNat funded
  | sold msg collection tokenId s result count outside funded =>
    have other := (outside_iff.mp outside).2.1
    have received := movedBalance_target w.balance msg.value.toNat other
    have first := total_movedBalance w.balance msg.sender this msg.value.toNat funded
    have second := total_movedBalance (movedBalance w.balance msg.sender this msg.value.toNat) this
      (w.item collection tokenId).seller msg.value.toNat (by omega)
    exact second.trans first
  | bid msg collection tokenId returns outside funded =>
    exact total_movedBalance w.balance msg.sender this msg.value.toNat funded
  | offered msg collection tokenId outside funded =>
    exact total_movedBalance w.balance msg.sender this msg.value.toNat funded
  | registered | auctioned | tokens => rfl
  | quiet _ owner categories categoryExists accounts balance timestamp quiet conserved =>
    exact conserved

variable (deployment : Deployment) (moves : List (Move Action))

/-- The balance is what the marketplace started with and the income of every event. Proof: by
induction on the run, one event at a time. -/
theorem balance_exact :
    (deployment.world moves).balance deployment.address =
      deployment.balance deployment.address +
        tallyAll kept (deployment.history moves) +
        ((deployment.history moves).map fun receipt =>
          forcedEther deployment.address receipt.event).sum := by
  refine deployment.run_invariant moves
    (fun history w => w.balance deployment.address = deployment.balance deployment.address +
      tallyAll kept history +
      (history.map fun receipt => forcedEther deployment.address receipt.event).sum) (by rfl) ?_
  intro event history w after change registry inductionHypothesis
  have grown := change.balance registry
  unfold income at grown
  simp only [tallyAll_cons, List.map_cons, List.sum_cons]
  omega

/-- All ether in existence stays below 2²⁵⁶ wei, and so does the marketplace's. So no sum of what
the marketplace has received overflows a word. -/
theorem balance_bound :
    (deployment.world moves).balance deployment.address < 2 ^ 256 := by
  have supply := deployment.run_invariant moves
    (fun _ w => total w.balance = total deployment.balance) rfl
    fun _ _ _ _ change _ inductionHypothesis => change.supply.trans inductionHypothesis
  have part := le_total (deployment.world moves).balance deployment.address
  have bound := deployment.supply_bound
  omega

/-- No event takes ether out of the marketplace. The longer history has the income of more events. -/
theorem balance_never_falls (later : List (Move Action))
    (continues : deployment.Continues moves later) :
    (deployment.world moves).balance deployment.address ≤
      (deployment.world (moves ++ later)).balance deployment.address := by
  refine deployment.continued_invariant moves later continues
    (fun w after => w.balance deployment.address ≤ after.balance deployment.address)
    (fun _ => Nat.le_refl _) (fun _ _ _ => Nat.le_trans) ?_
  intro event w after change registry
  have grown := change.balance registry
  omega

end Balance

section Solvency

variable (deployment : Deployment) (moves : List (Move Action))

/-- The number of entries in the lists of token identifiers. A number that was listed twice counts
twice. -/
noncomputable def entries (w : World) : Nat :=
  total fun collection => (w.marketplace.collectionTokenIds collection).length

/-- The prices of all stored offers. They include those on tokens that were sold since. -/
noncomputable def offersHeld (w : World) : Nat :=
  total₂ fun collection tokenId =>
    ((w.marketplace.itemOffers collection tokenId).map fun offer => offer.price.toNat).sum

/-- All standing bids and pending returns. It is what all bid books together owe or hold. -/
noncomputable def bidsHeld (w : World) : Nat :=
  total₂ fun collection tokenId => (w.item collection tokenId).highestBid.toNat +
    total fun account => (w.marketplace.pendingReturns collection tokenId account).toNat

/-- Every entry is a listing. So the fees that were paid can be counted off the lists. -/
theorem entries_exact :
    entries (deployment.world moves) =
      tallyAll listingCount (deployment.history moves) := by
  rw [← total_tally]
  unfold entries total₂
  congr 1
  funext collection
  rw [← total_count]
  congr 1
  funext tokenId
  exact listings_exact deployment moves collection tokenId

/-- The offers that are stored are worth what the calls of `makeOffer` carried, exactly. None of
it is ever paid back or paid out. -/
theorem offersHeld_exact :
    offersHeld (deployment.world moves) =
      tallyAll offerValue (deployment.history moves) := by
  rw [← total_tally]
  unfold offersHeld
  congr 1
  funext collection tokenId
  exact offers_exact deployment moves collection tokenId

/-- What one token's book holds was paid in bids on the token. The rest, if there is any, was
forgotten when the token was listed again. -/
theorem book_covered (collection : Address) (tokenId : UInt256) :
    ((deployment.world moves).item collection tokenId).highestBid.toNat +
        total (fun account => ((deployment.world moves).marketplace.pendingReturns
          collection tokenId account).toNat) ≤
      tally bidValue collection tokenId (deployment.history moves) := by
  have sound := deployment.lot_sound moves collection tokenId
  have claims := Book.total_claim
    ((deployment.world moves).lot collection tokenId).book
  have below : total
      ((deployment.world moves).lot collection tokenId).book.claim ≤
      total fun account =>
        paidBy account (bidsOn collection tokenId (deployment.history moves)) := by
    apply total_mono
    intro account
    have exact := claims_exact deployment moves collection tokenId account
    omega
  rw [total_paidBy, bids_tally, claims, sound.highest, Nat.add_comm] at below
  exact below

/-- What is owed to bidders, with the standing bids, is covered by what bids carried. It may be
less: a listing that overwrites a record forgets its standing bid. -/
theorem bidsHeld_covered :
    bidsHeld (deployment.world moves) ≤
      tallyAll bidValue (deployment.history moves) := by
  rw [← total_tally]
  exact total₂_mono _ _ (book_covered deployment moves)

/-- Every claim in a book is below 2²⁵⁶ wei: it was paid in ether that exists. It has to be, since
claims are kept in words. -/
theorem claim_bound (collection : Address) (tokenId : UInt256) (account : Address) :
    ((deployment.world moves).lot collection tokenId).book.claim account <
      2 ^ 256 := by
  have exact := claims_exact deployment moves collection tokenId account
  have paid : paidBy account
      (bidsOn collection tokenId (deployment.history moves)) ≤
      tally bidValue collection tokenId (deployment.history moves) := by
    rw [← bids_tally, ← total_paidBy]
    exact le_total (fun account => paidBy account
      (bidsOn collection tokenId (deployment.history moves))) account
  have all : tally bidValue collection tokenId (deployment.history moves) ≤
      tallyAll bidValue (deployment.history moves) := by
    rw [← total_tally]
    exact le_total₂ (fun collection tokenId =>
      tally bidValue collection tokenId (deployment.history moves)) collection tokenId
  have split := tallyAll_kept (deployment.history moves)
  have balance := balance_exact deployment moves
  have bound := balance_bound deployment moves
  omega

/-- Crediting the bidder a new bid replaces never overflows. So the check that the compiler
inserts never refuses a bid. -/
theorem credit_fits (collection : Address) (tokenId : UInt256) :
    ((deployment.world moves).marketplace.pendingReturns collection tokenId
        ((deployment.world moves).item collection tokenId).highestBidder).toNat +
      ((deployment.world moves).item collection tokenId).highestBid.toNat < 2 ^ 256 := by
  have owed := World.owed_eq_claim (deployment.world moves)
    (deployment.lot_sound moves collection tokenId)
    ((deployment.world moves).item collection tokenId).highestBidder
  rw [if_pos rfl] at owed
  rw [owed]
  exact claim_bound deployment moves collection tokenId _

/-- A funded bid above the standing one is accepted while the auction runs. Nothing about the
bidder that it outbids can prevent it, since nobody is paid. -/
theorem higher_bid_accepted (msg : Msg) (collection : Address) (tokenId : UInt256)
    (outside : (deployment.world moves).isOutside deployment.address msg.sender = true)
    (funded : msg.value.toNat ≤ (deployment.world moves).balance msg.sender)
    (auction : ((deployment.world moves).item collection tokenId).isAuction = true)
    (running : (deployment.world moves).timestamp <
      ((deployment.world moves).item collection tokenId).auctionEndTime)
    (higher : ((deployment.world moves).item collection tokenId).highestBid <
      msg.value) :
    ∃ after, execute deployment.address (.marketplace msg (.placeBid collection tokenId))
      (deployment.world moves) = .ok (after, none) := by
  obtain ⟨returns, credited⟩ :=
    NFTMarketplace.credit_exists (credit_fits deployment moves collection tokenId)
  have unlocked := (deployment.registry moves).unlocked
  obtain ⟨after, placed⟩ : ∃ after, NFTMarketplace.placeBid msg collection tokenId
      { (deployment.world moves) with
        balance := movedBalance (deployment.world moves).balance msg.sender
          deployment.address msg.value.toNat } = .ok after :=
    ⟨_, NFTMarketplace.placeBid_ok.mpr
      ⟨unlocked, auction, running, higher, returns, credited, rfl⟩⟩
  have called : NFTMarketplace.call deployment.address msg (.placeBid collection tokenId)
      (deployment.world moves) = .ok after :=
    NFTMarketplace.payable_ok.mpr ⟨funded, placed⟩
  exact ⟨after, execute_marketplace_ok.mpr ⟨outside, called, rfl⟩⟩

/-- Exact accounting and solvency, when no ether reaches the marketplace except through its
payable functions: the balance is the fees of all entries, all offers and all bids ever paid; it
covers the fees, the offers and everything the bid books hold; a sale leaves it unchanged; and the
refund arithmetic never blocks a higher bid. Ether that is forced on the marketplace would add to
its balance and to nothing else. The parts are proved one by one and put together here. -/
theorem ether_accounting
    (empty : deployment.balance deployment.address = 0)
    (unforced : ∀ receipt ∈ deployment.history moves,
      forcedEther deployment.address receipt.event = 0) :
    (deployment.world moves).balance deployment.address =
        (deployment.world moves).marketplace.listingFee.toNat *
            entries (deployment.world moves) +
          offersHeld (deployment.world moves) +
          tallyAll bidValue (deployment.history moves) ∧
      (deployment.world moves).marketplace.listingFee.toNat *
            entries (deployment.world moves) +
          offersHeld (deployment.world moves) +
          bidsHeld (deployment.world moves) ≤
        (deployment.world moves).balance deployment.address ∧
      (∀ msg collection tokenId after continuation,
        execute deployment.address (.marketplace msg (.createMarketSale collection tokenId))
          (deployment.world moves) = .ok (after, continuation) →
        after.balance deployment.address =
          (deployment.world moves).balance deployment.address) ∧
      ∀ (msg : Msg) (collection : Address) (tokenId : UInt256),
        (deployment.world moves).isOutside deployment.address msg.sender = true →
        msg.value.toNat ≤ (deployment.world moves).balance msg.sender →
        ((deployment.world moves).item collection tokenId).isAuction = true →
        (deployment.world moves).timestamp <
          ((deployment.world moves).item collection tokenId).auctionEndTime →
        ((deployment.world moves).item collection tokenId).highestBid < msg.value →
        ∃ after, execute deployment.address (.marketplace msg (.placeBid collection tokenId))
          (deployment.world moves) = .ok (after, none) := by
  have fee := (deployment.registry moves).fee
  have split := tallyAll_kept (deployment.history moves)
  have balance := balance_exact deployment moves
  have forced : ((deployment.history moves).map fun receipt =>
      forcedEther deployment.address receipt.event).sum = 0 := by
    apply List.sum_eq_zero_iff.mpr
    intro amount member
    obtain ⟨receipt, recorded, rfl⟩ := List.mem_map.mp member
    exact unforced receipt recorded
  have exact : (deployment.world moves).balance deployment.address =
      (deployment.world moves).marketplace.listingFee.toNat *
          entries (deployment.world moves) +
        offersHeld (deployment.world moves) +
        tallyAll bidValue (deployment.history moves) := by
    rw [fee, entries_exact, offersHeld_exact]
    omega
  refine ⟨exact, ?_, ?_, higher_bid_accepted deployment moves⟩
  · have covered := bidsHeld_covered deployment moves
    omega
  · intro msg collection tokenId after continuation sold
    have effective : Effective (chain deployment.address)
        (.executed (.marketplace msg (.createMarketSale collection tokenId)))
        (deployment.world moves) after := ⟨continuation, sold⟩
    have grown := (deployment.change effective).balance (deployment.registry moves)
    simpa [income, trade, kept, forcedEther] using grown

/-- One listing, an auction with two bids, and an offer that came before it. The two bids come to
1500 wei. -/
def outbidAuction : List (Move Action) :=
  Deployment.sampleListing ++
    [.act (.marketplace ⟨12, 600⟩ (.makeOffer 100 1)),
      .act (.marketplace ⟨11, 0⟩ (.createAuction 100 1 500 100)),
      .act (.marketplace ⟨13, 700⟩ (.placeBid 100 1)),
      .act (.marketplace ⟨12, 800⟩ (.placeBid 100 1))]

/-- An auction with two bids, the second of which outbids the first: what the marketplace holds is
the listing fee and both bids, and the first bidder is owed the first. -/
theorem ether_accounting_outbid :
    let config := Deployment.sample.run outbidAuction
    config.current.state.balance 1 =
        config.current.state.marketplace.listingFee.toNat * entries config.current.state +
          offersHeld config.current.state + tallyAll bidValue config.current.history ∧
      tallyAll bidValue config.current.history = 1500 :=
  ⟨(ether_accounting Deployment.sample outbidAuction (by decide) (by decide +kernel)).1,
    by decide +kernel⟩

/-- No continuation of any run takes ether out of the marketplace again, whatever it owes. The
only payment the code makes is that of a sale, and it passes on what the same call brought in. -/
theorem owed_ether_never_paid :
    ¬ ∃ later, deployment.Continues moves later ∧
      (deployment.world (moves ++ later)).balance deployment.address <
        (deployment.world moves).balance deployment.address := by
  rintro ⟨later, continues, paid⟩
  have kept := balance_never_falls deployment moves later continues
  omega

/-- A refund of 700 wei and an offer of 600 wei that no sequence of calls pays out. The state is a
reachable one, and the account has done nothing wrong. -/
theorem refund_never_paid :
    let w := Deployment.sample.world outbidAuction
    w.marketplace.pendingReturns 100 1 13 = 700 ∧
      (w.marketplace.itemOffers 100 1).map Offer.price = [600] ∧
      ∀ later, w.balance 1 ≤
        (Deployment.sample.world (outbidAuction ++ later)).balance 1 := by
  refine ⟨by decide +kernel, by decide +kernel, ?_⟩
  intro later
  exact balance_never_falls Deployment.sample outbidAuction later (.inl (by rfl))

end Solvency

end OpenBeach
