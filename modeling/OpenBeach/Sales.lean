import OpenBeach.Accounts

/-!
# Sales

Listings and sales of a token alternate, so every sale uses up a listing that was
paid for. The number of sales is bounded by the listing fees the marketplace holds,
which is why the purchase counter of a buyer cannot overflow; with custody, nothing
inside a sale can fail that its three conditions do not exclude.
-/

namespace OpenBeach

open Function Mappings NestedCalls

/-- Counts sales. A sale is one, whatever it brings. -/
def saleCount : TradeEvent → Nat
  | .sale _ _ => 1
  | _ => 0

/-- Counts sales to one buyer. The buyer is the account that made the call. -/
def salesTo (user : Address) : TradeEvent → Nat
  | .sale buyer _ => if buyer = user then 1 else 0
  | _ => 0

section Counts

variable (deployment : Deployment) (moves : List (Move Action))

/-- What happened to a token adds up event by event; events about other tokens add nothing.
Inductions over histories use it at every step. -/
theorem tally_cons (measure : TradeEvent → Nat) (collection : Address) (tokenId : UInt256)
    (receipt : ChainReceipt) (history : List ChainReceipt) :
    tally measure collection tokenId (receipt :: history) =
      (tradeOn collection tokenId receipt.event).elim 0 measure +
        tally measure collection tokenId history :=
  rfl

/-- Listings and sales alternate: all listings but an open one were sold. A token has to be listed
again before it can be sold again. -/
theorem sales_and_listings (collection : Address) (tokenId : UInt256) :
    tally saleCount collection tokenId (deployment.history moves) +
        (if ((deployment.world moves).item collection tokenId).isOnSale = true
          then 1 else 0) =
      tally listingCount collection tokenId (deployment.history moves) := by
  refine deployment.lot_invariant moves collection tokenId
    (fun history lot => tally saleCount collection tokenId history +
        (if lot.item.isOnSale = true then 1 else 0) =
      tally listingCount collection tokenId history) (by rfl) ?_
  intro event history w after step sound inductionHypothesis
  simp only [tally_cons]
  generalize tradeOn collection tokenId event = kind at step
  cases step with
  | listing seller price tokenURI nonzero other positive owned =>
    have closed : ¬ (w.lot collection tokenId).item.isOnSale = true := by
      intro onSale
      exact other (owned.symm.trans (sound.escrowed onSale))
    rw [if_neg closed] at inductionHypothesis
    simp only [Option.elim_some, saleCount, listingCount, NFTMarketplace.listedItem, if_true]
    omega
  | sale buyer nonzero other onSale fixed held =>
    rw [if_pos onSale] at inductionHypothesis
    simp only [Option.elim_some, saleCount, listingCount, Bool.false_eq_true, if_false]
    omega
  | idle | auction | bid | offer =>
    simp only [Option.elim_some, Option.elim_none, saleCount, listingCount, Nat.zero_add]
    exact inductionHypothesis

/-- Sales to one buyer are sales. So bounds on sales are bounds on the purchases of any account. -/
theorem salesTo_le (user : Address) (kind : TradeEvent) : salesTo user kind ≤ saleCount kind := by
  cases kind with
  | sale buyer payment =>
    simp only [salesTo, saleCount]
    split
    · exact Nat.le_refl 1
    · exact Nat.zero_le 1
  | listing | auction | bid | offer => exact Nat.le_refl 0

/-- The purchase counter of a user counts the sales to that user. Every sale is counted, and
nothing else is. -/
theorem purchaseCount_exact (user : Address) :
    ((deployment.world moves).marketplace.userPurchaseCount user).toNat =
      tallyAll (salesTo user) (deployment.history moves) := by
  refine deployment.run_invariant moves
    (fun history w => (w.marketplace.userPurchaseCount user).toNat =
      tallyAll (salesTo user) history) ?_ ?_
  · have storage := NFTMarketplace.constructor_frame deployment.constructed
    simp only [Deployment.genesis]
    rw [storage]
    rfl
  · intro event history w after change registry inductionHypothesis
    rw [tallyAll_cons]
    cases change with
    | sold msg collection tokenId s result count outside funded unlocked onSale fixed price accepts
        found moved counted =>
      simp only [trade, Option.elim_some, salesTo, NFTMarketplace.selling]
      by_cases same : user = msg.sender
      · subst same
        rw [update_self, if_pos rfl]
        omega
      · rw [update_of_ne same, if_neg (Ne.symm same)]
        omega
    | tokens _ changed s result collections quiet =>
      rw [quiet]
      simpa using inductionHypothesis
    | quiet _ owner categories categoryExists accounts balance timestamp quiet =>
      rw [quiet]
      simpa using inductionHypothesis
    | registered | listed | auctioned | bid | offered =>
      simpa [trade, salesTo, NFTMarketplace.registering, NFTMarketplace.listing] using
        inductionHypothesis

/-- While some token is on sale there were fewer sales than listings. The open listing is one that
was not sold. -/
theorem sales_below_listings {collection : Address} {tokenId : UInt256}
    (onSale : ((deployment.world moves).item collection tokenId).isOnSale = true) :
    tallyAll saleCount (deployment.history moves) <
      tallyAll listingCount (deployment.history moves) := by
  have balanced : (fun collection tokenId =>
        tally saleCount collection tokenId (deployment.history moves) +
          if ((deployment.world moves).item collection tokenId).isOnSale = true
            then 1 else 0) =
      fun collection tokenId =>
        tally listingCount collection tokenId (deployment.history moves) := by
    funext collection tokenId
    exact sales_and_listings deployment moves collection tokenId
  have sums := total₂_add (fun collection tokenId =>
      tally saleCount collection tokenId (deployment.history moves))
    (fun collection tokenId =>
      if ((deployment.world moves).item collection tokenId).isOnSale = true
        then 1 else 0)
  rw [balanced, total_tally, total_tally] at sums
  have open_listing := le_total₂ (fun collection tokenId =>
    if ((deployment.world moves).item collection tokenId).isOnSale = true
      then 1 else 0) collection tokenId
  rw [if_pos onSale] at open_listing
  omega

/-- Listings are bounded by the fees the marketplace holds, hence so are purchases. Each of them
cost a fee that exists in ether, so there are fewer than a word can count. -/
theorem purchaseCount_fits (user : Address) {collection : Address} {tokenId : UInt256}
    (onSale : ((deployment.world moves).item collection tokenId).isOnSale = true) :
    ((deployment.world moves).marketplace.userPurchaseCount user).toNat + 1 <
      2 ^ 256 := by
  have counted := purchaseCount_exact deployment moves user
  have mine := tallyAll_mono (salesTo_le user) (deployment.history moves)
  have fewer := sales_below_listings deployment moves onSale
  have split := tallyAll_kept (deployment.history moves)
  have fee : NFTMarketplace.initialListingFee.toNat = 500000000000000 := by decide
  have balance := balance_exact deployment moves
  have bound := balance_bound deployment moves
  rw [fee] at split
  omega

end Counts

section Custody

variable {this : Address} {w after : World} {event : ChainEvent}

/-- A token somebody holds belongs to a deployed collection. There is no owner where there is no
contract. -/
theorem owner_found {collection holder : Address} {tokenId : UInt256} (nonzero : holder ≠ 0)
    (held : w.ownerOf collection tokenId = holder) :
    ∃ s, w.deployed collection = some s ∧ s.owners tokenId = holder := by
  unfold World.ownerOf ownerIn at held
  split at held
  · exact absurd held.symm nonzero
  · next s found => exact ⟨s, found, held⟩

/-- A token on sale leaves the marketplace only when it is sold. No other step of a lot takes it
out of custody. -/
theorem LotStep.leaves {collection : Address} {tokenId now : UInt256} {lot after : Lot}
    {kind : Option TradeEvent} (step : LotStep this collection tokenId now lot kind after)
    (held : lot.holder = this) (left : after.holder ≠ this) :
    ∃ buyer, kind = some (.sale buyer lot.item.price) := by
  cases step with
  | idle holder kept => exact absurd (kept held) left
  | listing => exact absurd rfl left
  | sale buyer nonzero other onSale fixed held => exact ⟨buyer, rfl⟩
  | auction => exact absurd held left
  | bid => exact absurd held left
  | offer => exact absurd held left

/-- A sale of a token is a successful `createMarketSale` on it. Buyer and payment are the sender
and the value of the call. -/
theorem sale_call {collection buyer : Address} {tokenId payment : UInt256}
    (sold : tradeOn collection tokenId event = some (.sale buyer payment)) :
    event = .executed (.marketplace ⟨buyer, payment⟩ (.createMarketSale collection tokenId)) := by
  have traded := tradeOn_eq_some.mp sold
  unfold trade at traded
  split at traded <;> cases traded
  rfl

variable (deployment : Deployment) (moves : List (Move Action))

/-- In a reachable state a sale succeeds on its three conditions alone. Everything else that the
code checks on the way holds by the invariants. -/
theorem sale_succeeds_iff (msg : Msg) (collection : Address) (tokenId : UInt256)
    (other : msg.sender ≠ deployment.address) (nonzero : msg.sender ≠ 0)
    (funded : msg.value.toNat ≤ (deployment.world moves).balance msg.sender)
    (accepts : (deployment.world moves).acceptsEther deployment.address
      ((deployment.world moves).item collection tokenId).seller = true) :
    (∃ after, NFTMarketplace.call deployment.address msg (.createMarketSale collection tokenId)
        (deployment.world moves) = .ok after) ↔
      ((deployment.world moves).item collection tokenId).isOnSale = true ∧
        ((deployment.world moves).item collection tokenId).isAuction = false ∧
        msg.value = ((deployment.world moves).item collection tokenId).price := by
  constructor
  · rintro ⟨after, completed⟩
    obtain ⟨_, completed⟩ := NFTMarketplace.payable_ok.mp completed
    obtain ⟨_, onSale, fixed, price, _⟩ := NFTMarketplace.createMarketSale_ok.mp completed
    exact ⟨onSale, fixed, price⟩
  · rintro ⟨onSale, fixed, price⟩
    have held := (deployment.lot_sound moves collection tokenId).escrowed onSale
    obtain ⟨s, found, owned⟩ := owner_found deployment.address_ne_zero held
    have authorised : s.isAuthorized (s.owners tokenId) deployment.address tokenId = true := by
      simp [NFTCollection.isAuthorized, owned, deployment.address_ne_zero]
    have transferred : NFTCollection.transferFrom deployment.address deployment.address msg.sender
        tokenId s = .ok (s.reassign tokenId msg.sender) :=
      NFTCollection.transferFrom_ok.mpr ⟨nonzero, fun _ => authorised, owned, rfl⟩
    have covered : msg.value.toNat ≤ movedBalance (deployment.world moves).balance
        msg.sender deployment.address msg.value.toNat deployment.address := by
      rw [movedBalance_target _ _ other]
      exact Nat.le_add_left _ _
    obtain ⟨after, sold⟩ : ∃ after, NFTMarketplace.createMarketSale deployment.address msg
        collection tokenId { (deployment.world moves) with
          balance := movedBalance (deployment.world moves).balance msg.sender
            deployment.address msg.value.toNat } = .ok after :=
      ⟨_, NFTMarketplace.createMarketSale_ok.mpr
        ⟨(deployment.registry moves).unlocked, onSale, fixed, price, accepts, covered, s, _,
          ⟨_, purchaseCount_fits deployment moves msg.sender onSale⟩, found, transferred, rfl,
          rfl⟩⟩
    exact ⟨after, NFTMarketplace.payable_ok.mpr ⟨funded, sold⟩⟩

/-- Custody of listed tokens: an item on sale is of an active collection, has a seller, and is
held by the marketplace until it is sold; and it can always be bought. The facts of custody are
read off the invariant of lots. A sale has to count the purchase besides, and the counter has room
since every listing cost a fee. -/
theorem custody_of_listed :
    (∀ collection tokenId,
      ((deployment.world moves).item collection tokenId).isOnSale = true →
        collection ∈ (deployment.world moves).marketplace.collectionAddresses ∧
        ((deployment.world moves).marketplace.collections collection).isActive = true ∧
        ((deployment.world moves).item collection tokenId).seller ≠ 0 ∧
        (deployment.world moves).ownerOf collection tokenId = deployment.address) ∧
      (∀ event after collection tokenId,
        Effective (chain deployment.address) event (deployment.world moves) after →
        ((deployment.world moves).item collection tokenId).isOnSale = true →
        after.ownerOf collection tokenId ≠ deployment.address →
          ∃ msg, event = .executed (.marketplace msg (.createMarketSale collection tokenId))) ∧
      ∀ (msg : Msg) (collection : Address) (tokenId : UInt256),
        msg.sender ≠ deployment.address → msg.sender ≠ 0 →
        msg.value.toNat ≤ (deployment.world moves).balance msg.sender →
        (deployment.world moves).acceptsEther deployment.address
          ((deployment.world moves).item collection tokenId).seller = true →
        ((∃ after, NFTMarketplace.call deployment.address msg
            (.createMarketSale collection tokenId) (deployment.world moves) =
              .ok after) ↔
          ((deployment.world moves).item collection tokenId).isOnSale = true ∧
            ((deployment.world moves).item collection tokenId).isAuction = false ∧
            msg.value = ((deployment.world moves).item collection tokenId).price) := by
  have registry := deployment.registry moves
  refine ⟨?_, ?_, sale_succeeds_iff deployment moves⟩
  · intro collection tokenId onSale
    have sound := deployment.lot_sound moves collection tokenId
    have held := sound.escrowed onSale
    obtain ⟨s, found, _⟩ := owner_found deployment.address_ne_zero held
    refine ⟨?_, ?_, sound.attributed onSale, held⟩
    · rw [registry.registered, found]
      rfl
    · rw [registry.active, found]
      rfl
  · intro event after collection tokenId effective onSale left
    have held := (deployment.lot_sound moves collection tokenId).escrowed onSale
    have step := (deployment.change effective).lot deployment.address_ne_zero registry collection
      tokenId
    obtain ⟨buyer, sold⟩ := step.leaves held left
    exact ⟨_, sale_call sold⟩

end Custody

end OpenBeach
