import OpenBeach.Deals

/-!
# A token can always be sold

Whatever happened before, whoever holds a token of a collection can put it on sale, and
then anybody can buy it. Neither former listings, bids and offers nor calls in progress
stand in the way: the calls that sell a token are enabled in every reachable state.
-/

namespace OpenBeach

open Function Mappings NestedCalls

namespace Deployment

variable (deployment : Deployment) (moves : List (Move Action))

/-- An action that runs to its end leaves the world it returned. Only the end of a block is
excluded, for it waits until no call is in progress. -/
theorem world_act {action : Action} {after : World}
    (inner : (chain deployment.address).outermost action = false)
    (ran : execute deployment.address action (deployment.world moves) = .ok (after, none)) :
    deployment.world (moves ++ [.act action]) = after := by
  have whole : deployment.run (moves ++ [.act action]) =
      (deployment.run moves).step (chain deployment.address) (.act action) :=
    Config.run_append _ _ moves [.act action]
  have executed : (chain deployment.address).execute action
      (deployment.run moves).current.state = .ok (after, none) := ran
  simp only [world, whole, Config.step, inner, executed]
  rfl

section Calls

variable {collection holder : Address} {tokenId price : UInt256} {s : NFTCollection}

/-- The holder of a token approves it for the marketplace. Nothing but the approval of that token
changes. -/
theorem approve_runs (found : (deployment.world moves).deployed collection = some s)
    (held : s.owners tokenId = holder)
    (outside : (deployment.world moves).isOutside deployment.address holder = true) :
    deployment.world (moves ++
        [.act (.collection holder collection (.approve deployment.address tokenId))]) =
      (deployment.world moves).setCollection collection
        { s with tokenApprovals := update s.tokenApprovals tokenId deployment.address } := by
  obtain ⟨nonzero, _, _⟩ := outside_iff.mp outside
  have approved : (deployment.world moves).callCollection collection
      (NFTCollection.approve holder deployment.address tokenId) =
      .ok ((deployment.world moves).setCollection collection
        { s with tokenApprovals := update s.tokenApprovals tokenId deployment.address }) :=
    callCollection_ok.mpr ⟨s, _, found,
      NFTCollection.approve_ok.mpr ⟨held ▸ nonzero, .inr (.inl held), rfl⟩, rfl⟩
  refine deployment.world_act moves rfl ?_
  simp only [execute, bind_ok, ensure_ok, exists_const]
  exact ⟨outside, completed_ok.mpr ⟨approved, rfl⟩⟩

/-- The holder of a token that is approved for the marketplace lists it. The token moves into
custody, the fee is taken, and the item is on sale. -/
theorem listing_runs (found : (deployment.world moves).deployed collection = some s)
    (held : s.owners tokenId = holder) (approved : s.tokenApprovals tokenId = deployment.address)
    (outside : (deployment.world moves).isOutside deployment.address holder = true)
    (positive : 0 < price)
    (funded : NFTMarketplace.initialListingFee.toNat ≤ (deployment.world moves).balance holder) :
    deployment.world (moves ++
        [.act (.marketplace ⟨holder, NFTMarketplace.initialListingFee⟩
          (.createMarketItem collection tokenId price))]) =
      { (deployment.world moves) with
        marketplace := (deployment.world moves).marketplace.listing collection tokenId
          (NFTMarketplace.listedItem collection tokenId holder price (s.tokenURIs tokenId))
        deployed := update (deployment.world moves).deployed collection
          (some (s.reassign tokenId deployment.address))
        balance := movedBalance (deployment.world moves).balance holder deployment.address
          NFTMarketplace.initialListingFee.toNat } := by
  obtain ⟨nonzero, _, _⟩ := outside_iff.mp outside
  have registry := deployment.registry moves
  have active : ((deployment.world moves).marketplace.collections collection).isActive = true := by
    rw [registry.active, found]
    rfl
  have authorised : s.isAuthorized (s.owners tokenId) deployment.address tokenId = true := by
    simp [NFTCollection.isAuthorized, approved, deployment.address_ne_zero]
  have moved : NFTCollection.transferFrom deployment.address holder deployment.address tokenId s =
      .ok (s.reassign tokenId deployment.address) :=
    NFTCollection.transferFrom_ok.mpr
      ⟨deployment.address_ne_zero, fun _ => authorised, held, rfl⟩
  refine deployment.world_act moves rfl (execute_marketplace_ok.mpr ⟨outside, ?_, rfl⟩)
  exact NFTMarketplace.payable_ok.mpr ⟨funded, NFTMarketplace.createMarketItem_ok.mpr
    ⟨registry.unlocked, active, positive, registry.fee.symm, s, _, found, held ▸ nonzero, moved,
      rfl⟩⟩

/-- A listed item at a fixed price is sold. The token moves to the buyer and the payment to the
seller, and the item is closed. -/
theorem sale_runs {buyer : Address}
    (outside : (deployment.world moves).isOutside deployment.address buyer = true)
    (onSale : ((deployment.world moves).item collection tokenId).isOnSale = true)
    (fixed : ((deployment.world moves).item collection tokenId).isAuction = false)
    (accepts : (deployment.world moves).acceptsEther deployment.address
      ((deployment.world moves).item collection tokenId).seller = true)
    (funded : ((deployment.world moves).item collection tokenId).price.toNat ≤
      (deployment.world moves).balance buyer) :
    Sold deployment.address buyer
      ((deployment.world moves).item collection tokenId).price collection tokenId
      (deployment.world moves) (deployment.world (moves ++
        [.act (.marketplace ⟨buyer, ((deployment.world moves).item collection tokenId).price⟩
          (.createMarketSale collection tokenId))])) := by
  obtain ⟨nonzero, other, _⟩ := outside_iff.mp outside
  obtain ⟨after, sold⟩ := (sale_succeeds_iff deployment moves
    ⟨buyer, ((deployment.world moves).item collection tokenId).price⟩ collection tokenId other
    nonzero funded accepts).mpr ⟨onSale, fixed, rfl⟩
  have executed := execute_marketplace_ok.mpr ⟨outside, sold, rfl⟩
  rw [deployment.world_act moves rfl executed]
  exact (marketplace_change outside sold).sold_effect collection tokenId (by simp [tradeOn, trade])

end Calls

/-- The calls that put a token on sale. The holder approves the marketplace for the token, and
then lists it for a fee. -/
def putOnSale (this collection holder : Address) (tokenId price : UInt256) : List (Move Action) :=
  [.act (.collection holder collection (.approve this tokenId)),
    .act (.marketplace ⟨holder, NFTMarketplace.initialListingFee⟩
      (.createMarketItem collection tokenId price))]

/-- The state after a token was put on sale and bought. There are three calls: an approval, a
listing and a purchase. -/
def afterResale (collection holder buyer : Address) (tokenId price : UInt256) : World :=
  deployment.world (moves ++ (putOnSale deployment.address collection holder tokenId price ++
    [.act (.marketplace ⟨buyer, price⟩ (.createMarketSale collection tokenId))]))

/-- What is left when a token was put on sale. The item is the new listing, the fee went to the
marketplace, and nothing else moved. -/
structure PutOnSale (this collection holder : Address) (tokenId price : UInt256) (w after : World) :
    Prop where
  item : ∃ tokenURI, after.item collection tokenId =
    NFTMarketplace.listedItem collection tokenId holder price tokenURI
  owners : ∀ otherCollection otherId, ¬ (otherCollection = collection ∧ otherId = tokenId) →
    after.ownerOf otherCollection otherId = w.ownerOf otherCollection otherId
  balance : after.balance =
    movedBalance w.balance holder this NFTMarketplace.initialListingFee.toNat
  isOutside : ∀ account, after.isOutside this account = w.isOutside this account
  acceptsEther : ∀ account, after.acceptsEther this account = w.acceptsEther this account

/-- Approving the token for the marketplace and listing it puts it on sale. Of the holder it asks
to hold the token and to have the fee. -/
theorem put_on_sale {collection holder : Address} {tokenId price : UInt256}
    (held : (deployment.world moves).ownerOf collection tokenId = holder)
    (outside : (deployment.world moves).isOutside deployment.address holder = true)
    (positive : 0 < price)
    (funded : NFTMarketplace.initialListingFee.toNat ≤ (deployment.world moves).balance holder) :
    PutOnSale deployment.address collection holder tokenId price (deployment.world moves)
      (deployment.world (moves ++
        putOnSale deployment.address collection holder tokenId price)) := by
  obtain ⟨nonzero, other, absent⟩ := outside_iff.mp outside
  obtain ⟨s, found, owned⟩ := owner_found nonzero held
  have approved := deployment.approve_runs moves found owned outside
  generalize given : moves ++
    [.act (.collection holder collection (.approve deployment.address tokenId))] = first at approved
  have code : ∀ (result : NFTCollection) account,
      (update (deployment.world moves).deployed collection (some result) account).isNone =
        ((deployment.world moves).deployed account).isNone := by
    intro result account
    by_cases same : account = collection <;> simp [same, found]
  have listed := @listing_runs deployment first collection holder tokenId price
    { s with tokenApprovals := update s.tokenApprovals tokenId deployment.address }
    (by rw [approved]; exact update_self _ _ _) owned (update_self _ _ _)
    (by rw [approved]; simpa [World.isOutside, World.setCollection, code] using outside)
    positive (by rw [approved]; exact funded)
  have both : moves ++ putOnSale deployment.address collection holder tokenId price =
      first ++ [.act (.marketplace ⟨holder, NFTMarketplace.initialListingFee⟩
        (.createMarketItem collection tokenId price))] := by
    rw [← given, List.append_assoc]
    rfl
  rw [both, listed, approved]
  simp only [World.setCollection, update_idem]
  refine ⟨⟨s.tokenURIs tokenId, ?_⟩, ?_, rfl, ?_, ?_⟩
  · exact update₂_self _ _ _ _
  · intro otherCollection otherId apart
    by_cases same : otherCollection = collection
    · subst same
      have different : otherId ≠ tokenId := fun here => apart ⟨rfl, here⟩
      simp [World.ownerOf, ownerIn, found, NFTCollection.reassign, different]
    · simp [World.ownerOf, ownerIn, same]
  · intro account
    simp [World.isOutside, code]
  · intro account
    simp [World.acceptsEther, code]

/-- From every state a run reaches, a token can be sold: its holder approves it for the
marketplace and lists it at any price, and any other account that has the price buys it. The buyer
gets the token, the holder the price, and the marketplace its fee; no other token changes hands.
Proof: each of the three calls is run, and what it leaves is what the next one needs. Nothing that
happened to the token before matters, a standing bid included. -/
theorem token_can_be_sold (collection holder buyer : Address) (tokenId price : UInt256)
    (held : (deployment.world moves).ownerOf collection tokenId = holder)
    (seller : (deployment.world moves).isOutside deployment.address holder = true)
    (outside : (deployment.world moves).isOutside deployment.address buyer = true)
    (different : buyer ≠ holder) (positive : 0 < price)
    (accepts : (deployment.world moves).acceptsEther deployment.address holder = true)
    (feePaid : NFTMarketplace.initialListingFee.toNat ≤ (deployment.world moves).balance holder)
    (funded : price.toNat ≤ (deployment.world moves).balance buyer) :
    (deployment.afterResale moves collection holder buyer tokenId price).ownerOf collection tokenId =
        buyer ∧
      (deployment.afterResale moves collection holder buyer tokenId price).balance buyer +
          price.toNat = (deployment.world moves).balance buyer ∧
      (deployment.afterResale moves collection holder buyer tokenId price).balance holder +
          NFTMarketplace.initialListingFee.toNat =
        (deployment.world moves).balance holder + price.toNat ∧
      (deployment.afterResale moves collection holder buyer tokenId price).balance
          deployment.address =
        (deployment.world moves).balance deployment.address +
          NFTMarketplace.initialListingFee.toNat ∧
      ∀ otherCollection otherId, ¬ (otherCollection = collection ∧ otherId = tokenId) →
        (deployment.afterResale moves collection holder buyer tokenId price).ownerOf
            otherCollection otherId =
          (deployment.world moves).ownerOf otherCollection otherId := by
  obtain ⟨_, holder_other, _⟩ := outside_iff.mp seller
  obtain ⟨_, buyer_other, _⟩ := outside_iff.mp outside
  have offered := deployment.put_on_sale moves held seller positive feePaid
  obtain ⟨tokenURI, item⟩ := offered.item
  generalize listing : moves ++ putOnSale deployment.address collection holder tokenId price =
    second at offered item
  have asked : ((deployment.world second).item collection tokenId).price = price := by rw [item]; rfl
  have lister : ((deployment.world second).item collection tokenId).seller = holder := by
    rw [item]
    rfl
  have untouched : (deployment.world second).balance buyer =
      (deployment.world moves).balance buyer := by
    rw [offered.balance, movedBalance_other _ _ different buyer_other]
  have sold := @sale_runs deployment second collection tokenId buyer
    (by rw [offered.isOutside]; exact outside) (by rw [item]; rfl) (by rw [item]; rfl)
    (by rw [lister, offered.acceptsEther]; exact accepts) (by rw [asked, untouched]; exact funded)
  have all : deployment.afterResale moves collection holder buyer tokenId price =
      deployment.world (second ++
        [.act (.marketplace ⟨buyer, price⟩ (.createMarketSale collection tokenId))]) := by
    rw [afterResale, ← listing, List.append_assoc]
  rw [asked, ← all] at sold
  have paid := sold.paid
  rw [lister, offered.balance] at paid
  have taken := movedBalance_source (deployment.world moves).balance
    NFTMarketplace.initialListingFee.toNat holder_other
  refine ⟨sold.handed, ?_, ?_, ?_, ?_⟩
  · rw [congrFun paid buyer, movedBalance_source _ _ different,
      movedBalance_other _ _ different buyer_other]
    omega
  · rw [congrFun paid holder, movedBalance_target _ _ different, taken]
    omega
  · rw [congrFun paid deployment.address,
      movedBalance_other _ _ (Ne.symm buyer_other) (Ne.symm holder_other),
      movedBalance_target _ _ holder_other]
  · intro otherCollection otherId apart
    exact (sold.owners otherCollection otherId apart).trans
      (offered.owners otherCollection otherId apart)

/-- Account 12 bought a token; it can sell it to 13. The record of the first sale is overwritten
by the new listing. -/
theorem token_can_be_sold_again :
    (sample.afterResale sampleSale 100 12 13 1 700).ownerOf 100 1 = 13 :=
  (token_can_be_sold sample sampleSale 100 12 13 1 700 (by decide +kernel) (by decide +kernel)
    (by decide +kernel) (by decide) (by decide) (by decide +kernel) (by decide +kernel)
    (by decide +kernel)).1

end Deployment

end OpenBeach
