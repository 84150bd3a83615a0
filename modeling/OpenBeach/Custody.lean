import OpenBeach.Lots

/-!
# Custody of tokens

A lot on sale is held by the marketplace, and bids are recorded only while an
auction is on. Both are invariants of the steps of a single lot, so they hold of
every token in every reachable state. From them follow the custody results: which
calls take a token, on whose behalf, and which tokens never come back.
-/

namespace OpenBeach

open Function Mappings NestedCalls BidBook

/-- The lot invariant. Bid fields are zero together, and outside an auction. What is on sale is
with the marketplace, and has a seller. -/
structure Lot.Sound (this : Address) (lot : Lot) : Prop where
  escrowed : lot.item.isOnSale = true → lot.holder = this
  attributed : lot.item.isOnSale = true → lot.item.seller ≠ 0
  vacant : lot.item.highestBidder = 0 ↔ lot.item.highestBid = 0
  unbid : lot.item.isAuction = false → lot.item.highestBid = 0

/-- A token nobody traded. Nothing is on sale there. -/
theorem Lot.unset_sound (this : Address) : Lot.unset.Sound this := by
  refine ⟨?_, ?_, ?_, ?_⟩ <;> simp [Lot.unset, MarketItem.unset]

/-- Every step keeps the lot invariant. A listing brings the token into custody, and only a sale
lets it out again. -/
theorem LotStep.sound {this collection : Address} {tokenId now : UInt256} {lot after : Lot}
    {kind : Option TradeEvent} (step : LotStep this collection tokenId now lot kind after)
    (sound : lot.Sound this) : after.Sound this := by
  obtain ⟨escrowed, attributed, vacant, unbid⟩ := sound
  cases step with
  | idle holder kept => exact ⟨fun onSale => kept (escrowed onSale), attributed, vacant, unbid⟩
  | listing seller price tokenURI nonzero other positive owned =>
    refine ⟨fun _ => rfl, fun _ => nonzero, ?_, fun _ => rfl⟩
    simp [NFTMarketplace.listedItem]
  | sale buyer nonzero other onSale fixed held =>
    refine ⟨?_, ?_, vacant, unbid⟩
    · intro impossible
      cases impossible
    · intro impossible
      cases impossible
  | auction startingPrice duration auctionEndTime nonzero fixed ends =>
    refine ⟨escrowed, attributed, vacant, ?_⟩
    intro impossible
    cases impossible
  | bid bidder value returns nonzero auction running higher credited =>
    have positive : value ≠ 0 := by
      rintro rfl
      exact Nat.not_lt_zero _ (Word.lt_def.mp higher)
    refine ⟨escrowed, attributed, ?_, ?_⟩
    · simp [nonzero, positive]
    · intro fixed
      rw [auction] at fixed
      cases fixed
  | offer buyer value onSale fixed positive => exact ⟨escrowed, attributed, vacant, unbid⟩

/-- Before the first call nothing is known about any token. No collection is deployed, so nobody
holds anything. -/
theorem Deployment.genesis_lot (deployment : Deployment) (collection : Address)
    (tokenId : UInt256) : deployment.genesis.lot collection tokenId = .unset := by
  have storage := NFTMarketplace.constructor_frame deployment.constructed
  simp only [World.lot, World.item, World.ownerOf, ownerIn, Deployment.genesis]
  rw [storage]
  rfl

namespace Deployment

variable (deployment : Deployment) (moves : List (Move Action))

/-- The invariant rule for one token over a run. Each step starts in a sound lot. Whatever is kept
by every step of the lot, from a lot that nobody traded, holds at the end. -/
theorem lot_invariant (collection : Address) (tokenId : UInt256)
    (P : List ChainReceipt → Lot → Prop) (base : P [] .unset)
    (keeps : ∀ event history w after,
      LotStep deployment.address collection tokenId w.timestamp (w.lot collection tokenId)
        (tradeOn collection tokenId event) after →
      (w.lot collection tokenId).Sound deployment.address →
      P history (w.lot collection tokenId) → P (⟨w, event⟩ :: history) after) :
    P (deployment.history moves)
      ((deployment.world moves).lot collection tokenId) := by
  have both := deployment.run_invariant moves
    (fun history w => (w.lot collection tokenId).Sound deployment.address ∧
      P history (w.lot collection tokenId))
    (by
      rw [deployment.genesis_lot]
      exact ⟨Lot.unset_sound deployment.address, base⟩)
    (by
      intro event history w after change registry ⟨sound, holds⟩
      have step := change.lot deployment.address_ne_zero registry collection tokenId
      exact ⟨step.sound sound, keeps event history w _ step sound holds⟩)
  exact both.2

/-- Every lot of every reachable state is sound. It is the first instance of the rule. -/
theorem lot_sound (collection : Address) (tokenId : UInt256) :
    ((deployment.world moves).lot collection tokenId).Sound deployment.address :=
  deployment.lot_invariant moves collection tokenId (fun _ lot => lot.Sound deployment.address)
    (Lot.unset_sound deployment.address) fun _ _ _ _ step sound _ => step.sound sound

/-- Every event of a run made a step of the lot, from a sound lot. With it, a fact about every
event of a run needs no induction of its own. -/
theorem receipt_step (collection : Address) (tokenId : UInt256) {receipt : ChainReceipt}
    (member : receipt ∈ (deployment.history moves)) :
    (receipt.before.lot collection tokenId).Sound deployment.address ∧
      ∃ after, LotStep deployment.address collection tokenId receipt.before.timestamp
        (receipt.before.lot collection tokenId) (tradeOn collection tokenId receipt.event)
        after := by
  have all := deployment.lot_invariant moves collection tokenId
    (fun history _ => ∀ receipt ∈ history,
      (receipt.before.lot collection tokenId).Sound deployment.address ∧
        ∃ after, LotStep deployment.address collection tokenId receipt.before.timestamp
          (receipt.before.lot collection tokenId) (tradeOn collection tokenId receipt.event) after)
    (by simp)
    (by
      intro event history w after step sound inductionHypothesis receipt member
      rcases List.mem_cons.mp member with rfl | member
      · exact ⟨sound, after, step⟩
      · exact inductionHypothesis receipt member)
  exact all receipt member

/-- The invariant rule for one token from a given event on. What holds right after the event, and
is kept by every step, holds at the end. -/
theorem lot_since (collection : Address) (tokenId : UInt256) (newer older : List ChainReceipt)
    (receipt : ChainReceipt)
    (recorded : (deployment.history moves) = newer ++ receipt :: older)
    (P : List ChainReceipt → Lot → Prop)
    (started : ∀ after,
      LotStep deployment.address collection tokenId receipt.before.timestamp
        (receipt.before.lot collection tokenId) (tradeOn collection tokenId receipt.event) after →
      (receipt.before.lot collection tokenId).Sound deployment.address → P [] after)
    (keeps : ∀ event newer w after,
      LotStep deployment.address collection tokenId w.timestamp (w.lot collection tokenId)
        (tradeOn collection tokenId event) after →
      (w.lot collection tokenId).Sound deployment.address →
      P newer (w.lot collection tokenId) → P (⟨w, event⟩ :: newer) after) :
    P newer ((deployment.world moves).lot collection tokenId) := by
  have step : ∀ event w after, Effective (chain deployment.address) event w after →
      Registry deployment.address w →
      LotStep deployment.address collection tokenId w.timestamp (w.lot collection tokenId)
        (tradeOn collection tokenId event) (after.lot collection tokenId) :=
    fun event w after effective registry =>
      (deployment.change effective).lot deployment.address_ne_zero registry collection tokenId
  refine (deployment.trace moves).since newer older receipt recorded
    (fun w => Registry deployment.address w ∧ (w.lot collection tokenId).Sound deployment.address)
    ⟨deployment.genesis_registry, ?_⟩ ?_ (fun newer w => P newer (w.lot collection tokenId)) ?_ ?_
  · rw [deployment.genesis_lot]
    exact Lot.unset_sound deployment.address
  · rintro event w after effective ⟨registry, sound⟩
    exact ⟨(deployment.change effective).registry registry,
      (step event w after effective registry).sound sound⟩
  · rintro after effective ⟨registry, sound⟩
    exact started _ (step _ _ after effective registry) sound
  · rintro event newer w after effective ⟨registry, sound⟩
    exact keeps event newer w _ (step event w after effective registry) sound

/-- The invariant rule for one token, at every event of a run and what came before. The fact is
about the history before the event, which is what the event's own call could see. -/
theorem lot_at (collection : Address) (tokenId : UInt256) (P : List ChainReceipt → Lot → Prop)
    (base : P [] .unset)
    (keeps : ∀ event history w after,
      LotStep deployment.address collection tokenId w.timestamp (w.lot collection tokenId)
        (tradeOn collection tokenId event) after →
      (w.lot collection tokenId).Sound deployment.address →
      P history (w.lot collection tokenId) → P (⟨w, event⟩ :: history) after)
    (newer older : List ChainReceipt) (receipt : ChainReceipt)
    (recorded : deployment.history moves = newer ++ receipt :: older) :
    P older (receipt.before.lot collection tokenId) := by
  have invariant := deployment.lot_invariant moves collection tokenId
    (fun history lot => P history lot ∧ ∀ newer receipt older,
      history = newer ++ receipt :: older → P older (receipt.before.lot collection tokenId))
    ⟨base, by simp⟩
    (by
      intro event history w after step sound ⟨holds, past⟩
      refine ⟨keeps event history w after step sound holds, ?_⟩
      intro newer receipt older split
      cases newer with
      | nil =>
        obtain ⟨rfl, rfl⟩ := List.cons.inj split
        exact holds
      | cons first rest => exact past rest receipt older (List.cons.inj split).2)
  exact invariant.2 newer receipt older recorded

/-- The rule for all states of a run: what the steps of one token keep, each under a
condition on how it began, holds of the token throughout if all of them met it. -/
theorem lot_states (collection : Address) (tokenId : UInt256) (met : ChainReceipt → Prop)
    (P : Lot → Prop) (base : P .unset)
    (keeps : ∀ receipt after,
      LotStep deployment.address collection tokenId receipt.before.timestamp
        (receipt.before.lot collection tokenId) (tradeOn collection tokenId receipt.event) after →
      (receipt.before.lot collection tokenId).Sound deployment.address → met receipt →
      P (receipt.before.lot collection tokenId) → P after)
    (all : ∀ receipt ∈ deployment.history moves, met receipt) :
    ∀ w ∈ (deployment.run moves).current.states, P (w.lot collection tokenId) := by
  have invariant := deployment.lot_invariant moves collection tokenId
    (fun history lot => (∀ receipt ∈ history, met receipt) →
      P lot ∧ ∀ receipt ∈ history, P (receipt.before.lot collection tokenId))
    (fun _ => ⟨base, by simp⟩)
    (by
      intro event history w after step sound inductionHypothesis all
      obtain ⟨holds, past⟩ := inductionHypothesis
        fun receipt member => all receipt (List.mem_cons_of_mem _ member)
      have here : met ⟨w, event⟩ := all ⟨w, event⟩ List.mem_cons_self
      refine ⟨keeps ⟨w, event⟩ after step sound here holds, ?_⟩
      intro receipt member
      rcases List.mem_cons.mp member with rfl | member
      · exact holds
      · exact past receipt member)
  obtain ⟨current, past⟩ := invariant all
  intro w member
  rcases List.mem_cons.mp member with rfl | member
  · exact current
  · obtain ⟨receipt, recorded, rfl⟩ := List.mem_map.mp member
    exact past receipt recorded

end Deployment

section Auctions

variable {this collection : Address} {tokenId now : UInt256} {lot after : Lot}
  {kind : Option TradeEvent}

/-- An auction keeps its token in custody if it started on a token in custody. A token
on sale is one. -/
theorem LotStep.auction_held (step : LotStep this collection tokenId now lot kind after)
    (sound : lot.Sound this) (held : lot.item.isAuction = true → lot.holder = this)
    (start : ∀ seller startingPrice duration,
      kind = some (.auction seller startingPrice duration) →
        lot.item.isOnSale = true ∨ lot.holder = this) :
    after.item.isAuction = true → after.holder = this := by
  cases step with
  | idle holder kept => exact fun auction => kept (held auction)
  | listing => exact fun _ => rfl
  | sale buyer nonzero other onSale fixed escrow =>
    intro auction
    exact absurd (fixed.symm.trans auction) (by decide)
  | auction startingPrice duration auctionEndTime nonzero fixed ends =>
    intro _
    rcases start _ _ _ rfl with onSale | escrow
    · exact sound.escrowed onSale
    · exact escrow
  | bid => exact held
  | offer => exact held

/-- Nothing releases an auctioned token in custody: a sale and a second auction refuse
it, and only its owner could list it again. -/
theorem LotStep.auction_locked (step : LotStep this collection tokenId now lot kind after)
    (held : lot.holder = this) (auction : lot.item.isAuction = true) :
    after.holder = this ∧ after.item.isAuction = true := by
  cases step with
  | idle holder kept => exact ⟨kept held, auction⟩
  | listing seller price tokenURI nonzero other positive owned =>
    exact absurd (owned.symm.trans held) other
  | sale buyer nonzero other onSale fixed escrow =>
    exact absurd (fixed.symm.trans auction) (by decide)
  | auction startingPrice duration auctionEndTime nonzero fixed ends =>
    exact absurd (fixed.symm.trans auction) (by decide)
  | bid => exact ⟨held, auction⟩
  | offer => exact ⟨held, auction⟩

end Auctions

section Escrow

variable (deployment : Deployment) (moves : List (Move Action)) (collection : Address)
  (tokenId : UInt256)

/-- If every auction of the token started in custody, every state of the run that has
it on auction has it in custody. -/
theorem auctions_held
    (start : ∀ receipt ∈ deployment.history moves,
      ∀ seller startingPrice duration, tradeOn collection tokenId receipt.event =
          some (.auction seller startingPrice duration) →
        (receipt.before.item collection tokenId).isOnSale = true ∨
          receipt.before.ownerOf collection tokenId = deployment.address) :
    ∀ w ∈ (deployment.run moves).current.states,
      (w.item collection tokenId).isAuction = true →
        w.ownerOf collection tokenId = deployment.address := by
  refine deployment.lot_states moves collection tokenId
    (fun receipt => ∀ seller startingPrice duration, tradeOn collection tokenId receipt.event =
        some (.auction seller startingPrice duration) →
      (receipt.before.item collection tokenId).isOnSale = true ∨
        receipt.before.ownerOf collection tokenId = deployment.address)
    (fun lot => lot.item.isAuction = true → lot.holder = deployment.address) ?_ ?_ start
  · intro impossible
    cases impossible
  · intro receipt after step sound start held
    exact step.auction_held sound held start

/-- Auctions and bids are confined to tokens in custody exactly in the runs in which every auction
was started on an item on sale, or on a token that had been sent to the marketplace. The code
never asks whether the item is on sale when an auction is started, so the condition is about the
state before each of those calls. The other direction needs only the moment at which an auction
began. -/
theorem auctions_in_escrow :
    ((∀ w ∈ (deployment.run moves).current.states,
        (w.item collection tokenId).isAuction = true →
          w.ownerOf collection tokenId = deployment.address) ∧
      (∀ receipt ∈ deployment.history moves,
        ∀ seller startingPrice duration, tradeOn collection tokenId receipt.event =
            some (.auction seller startingPrice duration) →
          receipt.before.ownerOf collection tokenId = deployment.address) ∧
      (∀ receipt ∈ deployment.history moves, ∀ bidder value,
        tradeOn collection tokenId receipt.event = some (.bid bidder value) →
          receipt.before.ownerOf collection tokenId = deployment.address)) ↔
    ∀ receipt ∈ deployment.history moves,
      ∀ seller startingPrice duration, tradeOn collection tokenId receipt.event =
          some (.auction seller startingPrice duration) →
        (receipt.before.item collection tokenId).isOnSale = true ∨
          receipt.before.ownerOf collection tokenId = deployment.address := by
  constructor
  · rintro ⟨_, held, _⟩ receipt member seller startingPrice duration started
    exact .inr (held receipt member seller startingPrice duration started)
  · intro start
    have held := auctions_held deployment moves collection tokenId start
    refine ⟨held, ?_, ?_⟩
    · intro receipt member seller startingPrice duration started
      rcases start receipt member seller startingPrice duration started with onSale | escrow
      · exact (deployment.receipt_step moves collection tokenId member).1.escrowed onSale
      · exact escrow
    · intro receipt member bidder value placed
      obtain ⟨_, after, step⟩ := deployment.receipt_step moves collection tokenId member
      rw [placed] at step
      have past : receipt.before ∈ (deployment.run moves).current.states :=
        List.mem_cons_of_mem _ (List.mem_map_of_mem member)
      cases step with
      | bid _ _ returns nonzero auction running higher credited =>
        exact held receipt.before past auction

/-- Account 11 sells its token to account 12 and then still auctions it. The record still names
account 11 as the seller. -/
def soldThenAuctioned : List (Move Action) :=
  Deployment.sampleListing ++
    [.act (.marketplace ⟨12, 1000⟩ (.createMarketSale 100 1)),
      .act (.marketplace ⟨11, 0⟩ (.createAuction 100 1 500 100)),
      .act (.marketplace ⟨13, 7⟩ (.placeBid 100 1))]

/-- An auction without its token: the marketplace took a bid of account 13 for a token
that belongs to account 12. -/
theorem auction_without_token :
    let w := Deployment.sample.world soldThenAuctioned
    (w.item 100 1).isAuction = true ∧ (w.item 100 1).highestBidder = 13 ∧
      w.ownerOf 100 1 = 12 ∧ w.ownerOf 100 1 ≠ Deployment.sample.address := by
  decide +kernel

/-- A token in custody that is on auction stays so, whatever is called afterwards. There is no
step of an auctioned lot that hands over its token. -/
theorem auction_lock (later : List (Move Action)) (continues : deployment.Continues moves later)
    (held : (deployment.world moves).ownerOf collection tokenId = deployment.address)
    (auction : ((deployment.world moves).item collection tokenId).isAuction = true) :
    (deployment.world (moves ++ later)).ownerOf collection tokenId =
        deployment.address ∧
      ((deployment.world (moves ++ later)).item collection tokenId).isAuction =
        true := by
  have locked := deployment.continued_invariant moves later continues
    (fun w after => w.ownerOf collection tokenId = deployment.address ∧
        (w.item collection tokenId).isAuction = true →
      after.ownerOf collection tokenId = deployment.address ∧
        (after.item collection tokenId).isAuction = true)
    (fun _ => id) (fun _ _ _ first second start => second (first start))
    (by
      rintro event w after change registry ⟨held, auction⟩
      have step := change.lot deployment.address_ne_zero registry collection tokenId
      exact step.auction_locked held auction)
  exact locked ⟨held, auction⟩

/-- No continuation of any run releases an auctioned token from custody, whether or not its
auction has ended. While an item is auctioned it can neither be sold nor auctioned again, and no
function ends an auction, so the lock is an invariant of every continuation. -/
theorem auctioned_token_never_released
    (held : (deployment.world moves).ownerOf collection tokenId = deployment.address)
    (auction : ((deployment.world moves).item collection tokenId).isAuction = true) :
    ¬ ∃ later, deployment.Continues moves later ∧
      (deployment.world (moves ++ later)).ownerOf collection tokenId ≠
        deployment.address := by
  rintro ⟨later, continues, released⟩
  exact released (auction_lock deployment moves collection tokenId later continues held auction).1

/-- Account 11 auctions its listed token, account 13 bids, and the auction ends. Nothing else is
called. -/
def endedAuction : List (Move Action) :=
  Deployment.sampleListing ++
    [.act (.marketplace ⟨11, 0⟩ (.createAuction 100 1 500 100)),
      .act (.marketplace ⟨13, 700⟩ (.placeBid 100 1)),
      .act (.nextBlock 2000)]

/-- Account 13 made the only bid in an auction that has ended, and the token stays with the
marketplace whatever happens next. Nobody can claim it. -/
theorem endedAuction_never_released :
    ¬ ∃ later, Deployment.sample.Continues endedAuction later ∧
      (Deployment.sample.world (endedAuction ++ later)).ownerOf 100 1 ≠
        Deployment.sample.address :=
  auctioned_token_never_released Deployment.sample endedAuction 100 1 (by decide +kernel)
    (by decide +kernel)

/-- The token of an ended auction that no sequence of calls hands to the winner. The code has no
function that ends an auction. -/
theorem winner_never_served :
    let w := Deployment.sample.world endedAuction
    (w.item 100 1).isAuction = true ∧ (w.item 100 1).auctionEndTime < w.timestamp ∧
      w.ownerOf 100 1 = Deployment.sample.address ∧ (w.item 100 1).highestBidder = 13 ∧
      ∀ later, (Deployment.sample.world (endedAuction ++ later)).ownerOf 100 1 =
        Deployment.sample.address := by
  refine ⟨by decide +kernel, by decide +kernel, by decide +kernel, by decide +kernel, ?_⟩
  intro later
  have settled : Deployment.sample.Continues endedAuction later := .inl (by rfl)
  exact (auction_lock Deployment.sample endedAuction 100 1 later settled (by decide +kernel)
    (by decide +kernel)).1

end Escrow

section Approvals

/-- Whether an event lists the token. The collection and the number have to be those of the token. -/
def lists (collection : Address) (tokenId : UInt256) (event : ChainEvent) : Bool :=
  match tradeOn collection tokenId event with
  | some (.listing _ _ _) => true
  | _ => false

/-- An event does not list a token exactly if what it does with the token is no listing. -/
theorem lists_eq_false {collection : Address} {tokenId : UInt256} {event : ChainEvent} :
    lists collection tokenId event = false ↔
      ∀ seller price fee,
        tradeOn collection tokenId event ≠ some (.listing seller price fee) := by
  unfold lists
  split
  · next seller price fee listed => simpa using ⟨seller, price, fee, listed⟩
  · next unlisted => simpa using unlisted

/-- An event that lists a token does so by somebody and for some price. It carried the fee
besides. -/
theorem lists_eq_true {collection : Address} {tokenId : UInt256} {event : ChainEvent} :
    lists collection tokenId event = true ↔
      ∃ seller price fee,
        tradeOn collection tokenId event = some (.listing seller price fee) := by
  unfold lists
  split
  · next seller price fee listed => simpa using ⟨seller, price, fee, listed⟩
  · next unlisted => simpa using unlisted

/-- The most recent listing of the token. Histories have the most recent event first, so it is the
first one that is found. -/
def latestListing (collection : Address) (tokenId : UInt256) (history : List ChainReceipt) :
    Option ChainReceipt :=
  history.find? fun receipt => lists collection tokenId receipt.event

variable {this : Address} {w after : World}

/-- A marketplace call moves at most the token it names: from its sender when it lists
the token, and to its sender, at the asking price, when it sells it. -/
theorem call_moves {msg : Msg} {call : NFTMarketplace.Call}
    (completed : NFTMarketplace.call this msg call w = .ok after) (collection : Address)
    (tokenId : UInt256) (moved : after.ownerOf collection tokenId ≠ w.ownerOf collection tokenId) :
    (∃ price, call = .createMarketItem collection tokenId price ∧
        w.ownerOf collection tokenId = msg.sender ∧ after.ownerOf collection tokenId = this) ∨
      (call = .createMarketSale collection tokenId ∧ w.ownerOf collection tokenId = this ∧
        after.ownerOf collection tokenId = msg.sender ∧
        msg.value = (w.item collection tokenId).price) := by
  have unmoved : ∀ balance marketplace accounts timestamp,
      after ≠ ⟨marketplace, w.deployed, accounts, balance, timestamp⟩ := by
    rintro balance marketplace accounts timestamp rfl
    exact moved rfl
  cases call with
  | addCategory category =>
    obtain ⟨_, completed⟩ := NFTMarketplace.nonPayable_ok.mp completed
    obtain ⟨s, _, rfl⟩ := NFTMarketplace.onStorage_ok.mp completed
    exact absurd rfl (unmoved _ _ _ _)
  | createCollection name symbol baseURI category newCollection =>
    obtain ⟨_, completed⟩ := NFTMarketplace.nonPayable_ok.mp completed
    obtain ⟨_, fresh, storage, created, rfl⟩ := NFTMarketplace.createCollection_ok.mp completed
    obtain ⟨_, rfl⟩ := NFTCollection.constructor_ok.mp created
    have absent : w.deployed newCollection = none := (outside_iff.mp fresh).2.2
    refine absurd ?_ moved
    by_cases same : collection = newCollection
    · subst same
      simp [World.ownerOf, ownerIn, World.setCollection, absent]
    · simp [World.ownerOf, ownerIn, World.setCollection, same]
  | createMarketItem listedCollection listedId price =>
    obtain ⟨_, completed⟩ := NFTMarketplace.payable_ok.mp completed
    obtain ⟨_, _, _, _, s, result, found, _, transferred, rfl⟩ :=
      NFTMarketplace.createMarketItem_ok.mp completed
    have source : w.ownerOf listedCollection listedId = msg.sender :=
      ownerOf_source found transferred
    have owner := ownerIn_moved found transferred collection tokenId
    by_cases same : collection = listedCollection ∧ tokenId = listedId
    · obtain ⟨rfl, rfl⟩ := same
      exact .inl ⟨price, rfl, source, owner.trans (if_pos ⟨rfl, rfl⟩)⟩
    · exact absurd (owner.trans (if_neg same)) moved
  | createMarketSale soldCollection soldId =>
    obtain ⟨_, completed⟩ := NFTMarketplace.payable_ok.mp completed
    obtain ⟨_, _, _, price, _, _, s, result, count, found, transferred, _, rfl⟩ :=
      NFTMarketplace.createMarketSale_ok.mp completed
    have source : w.ownerOf soldCollection soldId = this := ownerOf_source found transferred
    have owner := ownerIn_moved found transferred collection tokenId
    by_cases same : collection = soldCollection ∧ tokenId = soldId
    · obtain ⟨rfl, rfl⟩ := same
      exact .inr ⟨rfl, source, owner.trans (if_pos ⟨rfl, rfl⟩), price⟩
    · exact absurd (owner.trans (if_neg same)) moved
  | createAuction auctionedCollection auctionedId startingPrice duration =>
    obtain ⟨_, completed⟩ := NFTMarketplace.nonPayable_ok.mp completed
    obtain ⟨_, _, _, _, _, rfl⟩ := NFTMarketplace.createAuction_ok.mp completed
    exact absurd rfl (unmoved _ _ _ _)
  | placeBid biddenCollection biddenId =>
    obtain ⟨_, completed⟩ := NFTMarketplace.payable_ok.mp completed
    obtain ⟨_, _, _, _, _, _, rfl⟩ := NFTMarketplace.placeBid_ok.mp completed
    exact absurd rfl (unmoved _ _ _ _)
  | makeOffer offeredCollection offeredId =>
    obtain ⟨_, completed⟩ := NFTMarketplace.payable_ok.mp completed
    obtain ⟨_, _, _, _, rfl⟩ := NFTMarketplace.makeOffer_ok.mp completed
    exact absurd rfl (unmoved _ _ _ _)
  | updateCollectionTotalSupply reported =>
    obtain ⟨_, completed⟩ := NFTMarketplace.nonPayable_ok.mp completed
    obtain ⟨_, _, _, _, rfl⟩ := NFTMarketplace.updateCollectionTotalSupply_ok.mp completed
    exact absurd rfl (unmoved _ _ _ _)
  | transferOwnership newOwner =>
    obtain ⟨_, completed⟩ := NFTMarketplace.nonPayable_ok.mp completed
    obtain ⟨s, _, rfl⟩ := NFTMarketplace.onStorage_ok.mp completed
    exact absurd rfl (unmoved _ _ _ _)
  | renounceOwnership =>
    obtain ⟨_, completed⟩ := NFTMarketplace.nonPayable_ok.mp completed
    obtain ⟨s, _, rfl⟩ := NFTMarketplace.onStorage_ok.mp completed
    exact absurd rfl (unmoved _ _ _ _)

variable (deployment : Deployment) (moves : List (Move Action))

/-- The seller of an item on sale owned the token right before its latest listing. The listing had
to take the token from the account that made it. -/
theorem seller_owned (collection : Address) (tokenId : UInt256)
    (onSale : ((deployment.world moves).item collection tokenId).isOnSale = true) :
    ∃ receipt, latestListing collection tokenId (deployment.history moves) =
        some receipt ∧
      receipt.before.ownerOf collection tokenId =
        ((deployment.world moves).item collection tokenId).seller := by
  refine deployment.lot_invariant moves collection tokenId
    (fun history lot => lot.item.isOnSale = true →
      ∃ receipt, latestListing collection tokenId history = some receipt ∧
        receipt.before.ownerOf collection tokenId = lot.item.seller) ?_ ?_ onSale
  · intro impossible
    cases impossible
  · intro event history w after step sound inductionHypothesis onSale
    generalize seen : tradeOn collection tokenId event = kind at step
    cases step with
    | listing seller price tokenURI nonzero other positive owned =>
      exact ⟨⟨w, event⟩, by simp [latestListing, lists, seen], owned⟩
    | sale => cases onSale
    | idle | auction | bid | offer =>
      obtain ⟨receipt, latest, owned⟩ := inductionHypothesis onSale
      exact ⟨receipt, by simpa [latestListing, lists, seen] using latest, owned⟩

/-- Whatever the users have approved, a marketplace call takes tokens only from its own sender and
hands tokens only to its own sender; and only owners sell. A sale hands over a token of the
marketplace's own, for the price its seller asked; a listing takes the token of the account that
lists it. -/
theorem approvals_not_abused :
    (∀ msg call after,
      NFTMarketplace.call deployment.address msg call (deployment.world moves) =
        .ok after →
      ∀ collection tokenId, after.ownerOf collection tokenId ≠
          (deployment.world moves).ownerOf collection tokenId →
        (∃ price, call = .createMarketItem collection tokenId price ∧
            (deployment.world moves).ownerOf collection tokenId = msg.sender ∧
            after.ownerOf collection tokenId = deployment.address) ∨
          (call = .createMarketSale collection tokenId ∧
            (deployment.world moves).ownerOf collection tokenId =
              deployment.address ∧
            after.ownerOf collection tokenId = msg.sender ∧
            msg.value = ((deployment.world moves).item collection tokenId).price)) ∧
      ∀ collection tokenId,
        ((deployment.world moves).item collection tokenId).isOnSale = true →
        ∃ receipt, latestListing collection tokenId (deployment.history moves) =
            some receipt ∧
          receipt.before.ownerOf collection tokenId =
            ((deployment.world moves).item collection tokenId).seller :=
  ⟨fun _ _ _ completed collection tokenId moved => call_moves completed collection tokenId moved,
    seller_owned deployment moves⟩

end Approvals

end OpenBeach
