import OpenBeach.Control
import OpenBeach.Custody
import OpenBeach.Minting

/-!
# What stays

Neither contract ever deletes. Lists are only appended to, purchases and refunds only
accumulate, tokens do not vanish, and what a collection and its record say of each other
was fixed by the call that created it. Offers and collections are listed in the order of
time.
-/

namespace OpenBeach

open Function Mappings NestedCalls Sequences

/-- What the marketplace stored is there for good. Lists grow at their end, amounts grow, and the
records keep what they were created with. -/
structure NFTMarketplace.Keeps (s after : NFTMarketplace) : Prop where
  collectionAddresses : s.collectionAddresses <+: after.collectionAddresses
  categoryToCollections : ∀ category,
    s.categoryToCollections category <+: after.categoryToCollections category
  userCreatedCollections : ∀ user,
    s.userCreatedCollections user <+: after.userCreatedCollections user
  collectionTokenIds : ∀ collection,
    s.collectionTokenIds collection <+: after.collectionTokenIds collection
  itemOffers : ∀ collection tokenId,
    s.itemOffers collection tokenId <+: after.itemOffers collection tokenId
  pendingReturns : ∀ collection tokenId account,
    s.pendingReturns collection tokenId account ≤ after.pendingReturns collection tokenId account
  userPurchases : ∀ user collection tokenId, s.userPurchases user collection tokenId = true →
    after.userPurchases user collection tokenId = true
  userPurchaseCount : ∀ user, s.userPurchaseCount user ≤ after.userPurchaseCount user
  records : ∀ collection, (s.collections collection).isActive = true →
    after.collections collection =
      { s.collections collection with totalSupply := (after.collections collection).totalSupply }

/-- A collection is what it was created as, and has the tokens it had. Owners of tokens change,
and so may the owner of the contract, but no token disappears. -/
structure NFTCollection.Keeps (s after : NFTCollection) : Prop where
  name : after.name = s.name
  symbol : after.symbol = s.symbol
  baseURI : after.baseURI = s.baseURI
  category : after.category = s.category
  marketplaceAddress : after.marketplaceAddress = s.marketplaceAddress
  supply : s.tokenIds ≤ after.tokenIds
  tokens : ∀ tokenId, s.owners tokenId ≠ 0 → after.owners tokenId ≠ 0

/-- What a later world has kept of an earlier one, in the marketplace and in every collection. -/
structure World.Keeps (w after : World) : Prop where
  timestamp : w.timestamp ≤ after.timestamp
  categories : w.marketplace.getCategories <+: after.marketplace.getCategories
  marketplace : w.marketplace.Keeps after.marketplace
  collections : ∀ collection s, w.deployed collection = some s →
    ∃ result, after.deployed collection = some result ∧ s.Keeps result

section Order

/-- As long as nothing happens, everything is kept. Every list is its own beginning. -/
theorem NFTMarketplace.Keeps.refl (s : NFTMarketplace) : s.Keeps s where
  collectionAddresses := List.prefix_refl _
  categoryToCollections _ := List.prefix_refl _
  userCreatedCollections _ := List.prefix_refl _
  collectionTokenIds _ := List.prefix_refl _
  itemOffers _ _ := List.prefix_refl _
  pendingReturns _ _ _ := le_refl _
  userPurchases _ _ _ purchased := purchased
  userPurchaseCount _ := le_refl _
  records _ _ := rfl

/-- What is kept twice in a row is kept over the whole time. Each field is an order or an
equality. -/
theorem NFTMarketplace.Keeps.trans {s middle after : NFTMarketplace} (first : s.Keeps middle)
    (second : middle.Keeps after) : s.Keeps after where
  collectionAddresses := first.collectionAddresses.trans second.collectionAddresses
  categoryToCollections category :=
    (first.categoryToCollections category).trans (second.categoryToCollections category)
  userCreatedCollections user :=
    (first.userCreatedCollections user).trans (second.userCreatedCollections user)
  collectionTokenIds collection :=
    (first.collectionTokenIds collection).trans (second.collectionTokenIds collection)
  itemOffers collection tokenId :=
    (first.itemOffers collection tokenId).trans (second.itemOffers collection tokenId)
  pendingReturns collection tokenId account :=
    (first.pendingReturns collection tokenId account).trans
      (second.pendingReturns collection tokenId account)
  userPurchases user collection tokenId purchased :=
    second.userPurchases user collection tokenId (first.userPurchases user collection tokenId purchased)
  userPurchaseCount user := (first.userPurchaseCount user).trans (second.userPurchaseCount user)
  records collection active := by
    have kept := first.records collection active
    have stillActive : (middle.collections collection).isActive = true := by
      rw [kept]
      exact active
    have again := second.records collection stillActive
    rw [kept] at again
    exact again

/-- As long as nothing happens, everything is kept. Every field is an equality of a storage with
itself. -/
theorem NFTCollection.Keeps.refl (s : NFTCollection) : s.Keeps s :=
  ⟨rfl, rfl, rfl, rfl, rfl, le_refl _, fun _ existing => existing⟩

/-- What is kept twice in a row is kept over the whole time. Tokens that were kept are kept
further. -/
theorem NFTCollection.Keeps.trans {s middle after : NFTCollection} (first : s.Keeps middle)
    (second : middle.Keeps after) : s.Keeps after where
  name := second.name.trans first.name
  symbol := second.symbol.trans first.symbol
  baseURI := second.baseURI.trans first.baseURI
  category := second.category.trans first.category
  marketplaceAddress := second.marketplaceAddress.trans first.marketplaceAddress
  supply := first.supply.trans second.supply
  tokens tokenId existing := second.tokens tokenId (first.tokens tokenId existing)

/-- As long as nothing happens, everything is kept. This is the case of no moves at all. -/
theorem World.Keeps.refl (w : World) : w.Keeps w where
  timestamp := le_refl _
  categories := List.prefix_refl _
  marketplace := .refl _
  collections _ s found := ⟨s, found, .refl s⟩

/-- What is kept twice in a row is kept over the whole time, collection by collection. A
collection that is deployed in between is deployed at the end. -/
theorem World.Keeps.trans {w middle after : World} (first : w.Keeps middle)
    (second : middle.Keeps after) : w.Keeps after where
  timestamp := first.timestamp.trans second.timestamp
  categories := first.categories.trans second.categories
  marketplace := first.marketplace.trans second.marketplace
  collections collection s found := by
    obtain ⟨current, here, kept⟩ := first.collections collection s found
    obtain ⟨result, left, again⟩ := second.collections collection current here
    exact ⟨result, left, kept.trans again⟩

end Order

section Steps

variable {this : Address} {w after : World} {event : ChainEvent}

/-- A refund is added to what is owed. The addition is checked, and other accounts keep what they
have. -/
theorem NFTMarketplace.ReturnsCredited.grown {collection : Address} {tokenId : UInt256}
    {item : MarketItem} {s : NFTMarketplace} {returns : Address → UInt256 → Address → UInt256}
    (credited : s.ReturnsCredited collection tokenId item returns) (tested : Address)
    (testedId : UInt256) (account : Address) :
    s.pendingReturns tested testedId account ≤ returns tested testedId account := by
  unfold NFTMarketplace.ReturnsCredited at credited
  split at credited
  · rw [credited]
  · obtain ⟨credit, sum, rfl⟩ := credited
    refine update₃_grows (R := fun before now : UInt256 => before ≤ now) le_refl _ _ _ _ _ ?_ _ _ _
    rw [Word.le_def, sum]
    exact Nat.le_add_right _ _

/-- Every event keeps what the marketplace stored. The cases are those of the events; each writes
few of the fields. -/
theorem Change.keeps (change : Change this w event after) (registry : Registry this w) :
    w.timestamp ≤ after.timestamp ∧ w.marketplace.Keeps after.marketplace := by
  have same := NFTMarketplace.Keeps.refl w.marketplace
  have appended : ∀ {α : Type} (l : List α), l <+: l := fun l => List.prefix_refl l
  cases change with
  | registered msg name symbol baseURI category newCollection storage outside known fresh created =>
    obtain ⟨_, _, absent⟩ := outside_iff.mp fresh
    refine ⟨le_refl _, { same with
      collectionAddresses := List.prefix_append _ _
      categoryToCollections := update_grows (R := fun l result : List Address => l <+: result)
        appended _ _ _ (List.prefix_append _ _)
      userCreatedCollections := update_grows (R := fun l result : List Address => l <+: result)
        appended _ _ _ (List.prefix_append _ _)
      records := ?_ }⟩
    intro collection active
    have other : collection ≠ newCollection := by
      rintro rfl
      rw [registry.active, absent] at active
      cases active
    simp [NFTMarketplace.registering, NFTMarketplace.newRecord, other]
  | listed msg collection tokenId price =>
    exact ⟨le_refl _, { same with
      collectionTokenIds := update_grows (R := fun l result : List UInt256 => l <+: result)
        appended _ _ _ (List.prefix_append _ _) }⟩
  | sold msg collection tokenId s result count outside funded unlocked onSale fixed price accepts
      found moved counted =>
    refine ⟨le_refl _, { same with
      userPurchases := update₃_grows (R := fun before now : Bool => before = true → now = true)
        (fun _ purchased => purchased) _ _ _ _ _ (fun _ => rfl)
      userPurchaseCount := update_grows (R := fun before now : UInt256 => before ≤ now) le_refl
        _ _ _ ?_ }⟩
    rw [Word.le_def, counted]
    exact Nat.le_succ _
  | auctioned => exact ⟨le_refl _, { same with }⟩
  | bid msg collection tokenId returns outside funded unlocked auction running higher credited =>
    exact ⟨le_refl _, { same with pendingReturns := credited.grown }⟩
  | offered =>
    exact ⟨le_refl _, { same with
      itemOffers := update₂_grows (R := fun l result : List Offer => l <+: result) appended _ _ _ _
        (List.prefix_append _ _) }⟩
  | tokens _ collection s result collections quiet unforced found step supply =>
    exact ⟨le_refl _, { same with records := fun tested _ => supply tested }⟩
  | quiet event owner categories categoryExists accounts balance timestamp quiet conserved received
      later =>
    exact ⟨later, { same with }⟩

/-- Categories are only added. A handover leaves them, and there is no call that removes one. -/
theorem GovernanceStep.categories {governance after : Governance} {event : Option GovernanceEvent}
    (step : GovernanceStep governance event after) : governance.categories <+: after.categories := by
  cases step with
  | idle | handed => exact List.prefix_refl _
  | categoryAdded => exact List.prefix_append _ _

/-- Every call keeps what a collection was created as, and its tokens. The cases are those of the
calls; a mint adds a token, and a transfer moves one. -/
theorem StorageStep.keeps {s result : NFTCollection} {call : Option StorageEvent}
    (step : StorageStep this s call result) : s.Keeps result := by
  have same := NFTCollection.Keeps.refl s
  have moved : ∀ (tokenId : UInt256) target, target ≠ 0 → ∀ tested, s.owners tested ≠ 0 →
      update s.owners tokenId target tested ≠ 0 :=
    fun tokenId target given => update_grows
      (R := fun before now : Address => before ≠ 0 → now ≠ 0) (fun _ existing => existing) _ _ _
      fun _ => given
  cases step with
  | idle => exact same
  | transferred caller sender source target tokenId nonzero made given =>
    exact { same with tokens := moved tokenId target given }
  | minted sender recipient tokenId tokenURIs nonzero owner next given =>
    refine { same with supply := ?_, tokens := moved tokenId recipient given }
    rw [Word.le_def]
    exact next ▸ Nat.le_succ _
  | labelled | approved | operatorSet | handed => exact { same with }

/-- The step lemma for what stays. The marketplace and the collections are followed separately. -/
theorem effective_keeps (nonzero : this ≠ 0) (effective : Effective (chain this) event w after)
    (registry : Registry this w) : w.Keeps after where
  timestamp := ((effective_change nonzero effective).keeps registry).1
  categories := (effective_governance effective).categories
  marketplace := ((effective_change nonzero effective).keeps registry).2
  collections collection s found := by
    obtain ⟨result, left, step⟩ := effective_storage nonzero effective found
    exact ⟨result, left, step.keeps⟩

/-- The offer an event makes for a token. Its time is that of the block in which the event
started. -/
def offerMade (collection : Address) (tokenId : UInt256) (receipt : ChainReceipt) : Option Offer :=
  match tradeOn collection tokenId receipt.event with
  | some (.offer buyer value) => some ⟨buyer, value, receipt.before.timestamp⟩
  | _ => none

/-- The offers stored for a token are those made, with what they were made with and when. -/
structure OffersKept (collection : Address) (tokenId : UInt256) (history : List ChainReceipt)
    (w : World) : Prop where
  made : w.marketplace.itemOffers collection tokenId =
    chronicle (offerMade collection tokenId) history
  dated : Dated Offer.timestamp w.timestamp (w.marketplace.itemOffers collection tokenId)
  positive : ∀ offer ∈ w.marketplace.itemOffers collection tokenId, 0 < offer.price

/-- The step lemma for offers. An offer is appended with the time of the block, and no other trade
touches them. -/
theorem LotStep.offersKept {collection : Address} {tokenId : UInt256} {history : List ChainReceipt}
    (step : LotStep this collection tokenId w.timestamp (w.lot collection tokenId)
      (tradeOn collection tokenId event) (after.lot collection tokenId))
    (later : w.timestamp ≤ after.timestamp) (kept : OffersKept collection tokenId history w) :
    OffersKept collection tokenId (⟨w, event⟩ :: history) after := by
  have told := chronicle_cons (offerMade collection tokenId) ⟨w, event⟩ history
  rw [← kept.made] at told
  have entry : (after.lot collection tokenId).offers = w.marketplace.itemOffers collection tokenId ++
      (offerMade collection tokenId ⟨w, event⟩).toList →
      (∀ offer, offerMade collection tokenId ⟨w, event⟩ = some offer →
        offer.timestamp = w.timestamp ∧ 0 < offer.price) →
      OffersKept collection tokenId (⟨w, event⟩ :: history) after := by
    intro offers fresh
    have left : after.marketplace.itemOffers collection tokenId = _ := offers
    refine ⟨left.trans told.symm, ?_, ?_⟩
    · rw [left]
      cases made : offerMade collection tokenId ⟨w, event⟩ with
      | none => simpa using kept.dated.later later
      | some offer => exact (kept.dated.append (fresh offer made).1).later later
    · rw [left]
      intro offer member
      rcases List.mem_append.mp member with old | new
      · exact kept.positive offer old
      · exact (fresh offer (Option.mem_toList.mp new)).2
  generalize lot : after.lot collection tokenId = result at step entry
  unfold offerMade at entry
  generalize traded : tradeOn collection tokenId event = kind at step entry
  cases step with
  | idle | listing | sale | auction | bid => exact entry (List.append_nil _).symm (by simp)
  | offer buyer value onSale fixed positive =>
    refine entry rfl ?_
    rintro offer ⟨⟩
    exact ⟨rfl, positive⟩

/-- The collections are listed in the order of their creation. A new record carries the time of
its block, which is not before the others. -/
theorem Change.collections_dated (change : Change this w event after) (registry : Registry this w)
    (dated : Dated (fun collection => (w.marketplace.collections collection).createdAt) w.timestamp
      w.marketplace.collectionAddresses) :
    Dated (fun collection => (after.marketplace.collections collection).createdAt) after.timestamp
      after.marketplace.collectionAddresses := by
  have records := (change.keeps registry).2.records
  have later := (change.keeps registry).1
  have old : Dated (fun collection => (after.marketplace.collections collection).createdAt)
      after.timestamp w.marketplace.collectionAddresses := by
    refine (dated.later later).congr ?_
    intro collection member
    have active := (registry.active collection).trans ((registry.registered collection).mp member)
    rw [records collection active]
  cases change with
  | registered msg name symbol baseURI category newCollection storage =>
    refine old.append ?_
    simp [NFTMarketplace.registering, NFTMarketplace.newRecord]
  | listed | sold | auctioned | bid | offered | tokens | quiet => exact old

/-- A collection and its record say what the call said that created the collection. The supply is
the one field of the record that changes afterwards. -/
def AsCreated (this collection : Address) (history : List ChainReceipt) (record : Collection)
    (s : NFTCollection) : Prop :=
  s.marketplaceAddress = this ∧ ∃ created msg,
    ⟨created, .executed (.marketplace msg
      (.createCollection s.name s.symbol s.baseURI s.category collection))⟩ ∈ history ∧
    record = { NFTMarketplace.newRecord msg.sender s.name s.symbol s.baseURI s.category collection
      created.timestamp with totalSupply := record.totalSupply }

/-- What stays is as it was created. Name, symbol, base URI and category of a collection are never
written again. -/
theorem AsCreated.kept {collection : Address} {history : List ChainReceipt}
    {record result : Collection} {s left : NFTCollection}
    (created : AsCreated this collection history record s) (keeps : s.Keeps left)
    (recorded : result = { record with totalSupply := result.totalSupply })
    (receipt : ChainReceipt) : AsCreated this collection (receipt :: history) result left := by
  obtain ⟨address, before, msg, member, same⟩ := created
  refine ⟨keeps.marketplaceAddress.trans address, before, msg, ?_, ?_⟩
  · rw [keeps.name, keeps.symbol, keeps.baseURI, keeps.category]
    exact List.mem_cons_of_mem _ member
  · rw [keeps.name, keeps.symbol, keeps.baseURI, keeps.category]
    rw [same] at recorded
    exact recorded

/-- A new collection is what its creation said. The constructor and the record are given the same
arguments. -/
theorem asCreated_new {collection : Address} {history : List ChainReceipt} {msg : Msg}
    {name symbol baseURI category : Bytes} {record : Collection} {s : NFTCollection}
    (constructed : NFTCollection.constructor name symbol baseURI this category msg.sender = .ok s)
    (recorded : record =
      NFTMarketplace.newRecord msg.sender name symbol baseURI category collection w.timestamp) :
    AsCreated this collection (⟨w, .executed (.marketplace msg
      (.createCollection name symbol baseURI category collection))⟩ :: history) record s := by
  obtain ⟨_, rfl⟩ := NFTCollection.constructor_ok.mp constructed
  subst recorded
  exact ⟨rfl, w, msg, List.mem_cons_self, rfl⟩

end Steps

namespace Deployment

variable (deployment : Deployment) (moves : List (Move Action))

/-- The run lemma for what stays. The moves may be any, as long as the run takes up where it was. -/
theorem world_keeps (later : List (Move Action)) (continues : deployment.Continues moves later) :
    (deployment.world moves).Keeps (deployment.world (moves ++ later)) :=
  deployment.since_invariant moves later continues
    (fun _ w => (deployment.world moves).Keeps w) (fun _ => .refl _)
    fun _ _ _ _ effective registry kept =>
      kept.trans (effective_keeps deployment.address_ne_zero effective registry)

section URIs

variable {deployment moves} {collection : Address} {s result : NFTCollection} {tokenId : UInt256}
  {tokenURI : Bytes} {later : List (Move Action)}

/-- A mint call that ran to its end did so for good. Calls that returned are not rolled back by
anything that happens later. -/
theorem completedMints_kept (continues : deployment.Continues moves later) :
    completedMints deployment.address collection (deployment.history moves) ⊆
      completedMints deployment.address collection (deployment.history (moves ++ later)) := by
  obtain ⟨newer, same⟩ := deployment.continues_extends moves later continues
  rw [← same]
  exact List.filterMap_subset _ (completedCalls_suffix newer (deployment.history moves)).subset

/-- Once the mint of a token ran to its end, the URI of the token stays as it is. -/
theorem uri_kept (continues : deployment.Continues moves later)
    (still : (deployment.world (moves ++ later)).deployed collection = some result)
    (member : (tokenId, tokenURI) ∈
      completedMints deployment.address collection (deployment.history moves)) :
    result.owners tokenId ≠ 0 ∧ result.tokenURI tokenId = .ok tokenURI :=
  Accounted.stored (deployment.accounted (moves ++ later) still)
    (completedMints_kept continues member)

/-- A token whose mint is left to finish has no URI yet. A mint writes the URI after its callback
returned. -/
theorem completed_of_uri (found : (deployment.world moves).deployed collection = some s)
    (told : s.tokenURI tokenId = .ok tokenURI) (nonempty : tokenURI ≠ []) :
    (tokenId, tokenURI) ∈
      completedMints deployment.address collection (deployment.history moves) := by
  have accounted := deployment.accounted moves found
  obtain ⟨present, rfl⟩ := NFTCollection.tokenURI_ok.mp told
  obtain ⟨⟨_, labelled⟩, member, rfl⟩ :=
    List.mem_map.mp ((accounted.covered tokenId).mpr (Accounted.existing_iff.mpr present))
  rcases List.mem_append.mp member with opened | completed
  · exact absurd (accounted.unlabelled _ opened) nonempty
  · have stored : s.tokenURIs _ = labelled := accounted.labelled _ completed
    rwa [stored]

end URIs

/-- Nothing the contracts stored is taken back, whatever happens: lists keep what they list,
purchases stay bought, refunds owed are not reduced, records change in their supply only,
collections keep their tokens and what they were created as, and a URI that was set stays. Proof:
every event keeps what it finds, keeping is transitive, and a continuation adds events only. -/
theorem nothing_forgotten (later : List (Move Action)) (continues : deployment.Continues moves later) :
    (deployment.world moves).Keeps (deployment.world (moves ++ later)) ∧
      ∀ collection s tokenId tokenURI, (deployment.world moves).deployed collection = some s →
        s.tokenURI tokenId = .ok tokenURI → tokenURI ≠ [] →
        ∃ result, (deployment.world (moves ++ later)).deployed collection = some result ∧
          result.tokenURI tokenId = .ok tokenURI := by
  have keeps := deployment.world_keeps moves later continues
  refine ⟨keeps, ?_⟩
  intro collection s tokenId tokenURI found told nonempty
  obtain ⟨result, still, _⟩ := keeps.collections collection s found
  exact ⟨result, still, (uri_kept continues still (completed_of_uri found told nonempty)).2⟩

/-- Account 12 makes an offer for the listed token. The offer is stored with the token, and its
ether is held by the marketplace. -/
def offeredListing : List (Move Action) :=
  sampleListing ++ [.act (.marketplace ⟨12, 500⟩ (.makeOffer 100 1))]

/-- Account 13 buys the token for its price. A later block, and an account that made no offer. -/
def soldToOther : List (Move Action) :=
  [.act (.nextBlock 2000), .act (.marketplace ⟨13, 1000⟩ (.createMarketSale 100 1))]

/-- The offer of account 12 stays, and so does its ether. A sale to another account does not give
it back. -/
theorem nothing_forgotten_sold :
    ⟨12, 500, 1000⟩ ∈ (sample.world (offeredListing ++ soldToOther)).marketplace.itemOffers 100 1 ∧
      (sample.world (offeredListing ++ soldToOther)).ownerOf 100 1 = 13 := by
  obtain ⟨kept, _⟩ := nothing_forgotten sample offeredListing soldToOther (.inl (by rfl))
  have offered : ⟨12, 500, 1000⟩ ∈ (sample.world offeredListing).marketplace.itemOffers 100 1 := by
    decide +kernel
  exact ⟨(kept.marketplace.itemOffers 100 1).subset offered, by decide +kernel⟩

/-- Every collection was created by a call to the marketplace, and it and its record say what that
call said. No function writes these fields again, and a handover is not reported to the record. -/
theorem collections_as_created (collection : Address) (s : NFTCollection)
    (found : (deployment.world moves).deployed collection = some s) :
    AsCreated deployment.address collection (deployment.history moves)
      ((deployment.world moves).marketplace.collections collection) s := by
  have invariant := (deployment.trace moves).history_invariant
    (fun history w => Registry deployment.address w ∧ ∀ s, w.deployed collection = some s →
      AsCreated deployment.address collection history (w.marketplace.collections collection) s)
    ⟨deployment.genesis_registry, by simp [genesis]⟩
    (by
      rintro event history w after effective ⟨registry, created⟩
      have change := deployment.change effective
      refine ⟨change.registry registry, ?_⟩
      intro s left
      have keeps := effective_keeps deployment.address_ne_zero effective registry
      cases here : w.deployed collection with
      | none =>
        rcases change.deploys here with absent | ⟨msg, name, symbol, baseURI, category, storage, rfl,
          constructed, deployed, recorded⟩
        · rw [absent] at left
          cases left
        · obtain rfl := Option.some.inj (deployed.symm.trans left)
          exact asCreated_new constructed recorded
      | some before =>
        obtain ⟨result, still, kept⟩ := keeps.collections collection before here
        obtain rfl := Option.some.inj (still.symm.trans left)
        have active : (w.marketplace.collections collection).isActive = true := by
          rw [registry.active, here]
          rfl
        exact (created before here).kept kept (keeps.marketplace.records collection active) _)
  exact invariant.2 s found

/-- The collection of the sample, against the call that created it. Its name, symbol and category
are those of the call. -/
theorem collections_as_created_sample :
    ∃ s, (sample.world sampleListing).deployed 100 = some s ∧
      AsCreated 1 100 (sample.history sampleListing)
        ((sample.world sampleListing).marketplace.collections 100) s := by
  obtain ⟨s, found⟩ := Option.isSome_iff_exists.mp
    (by decide +kernel : ((sample.world sampleListing).deployed 100).isSome = true)
  exact ⟨s, found, collections_as_created sample sampleListing 100 s found⟩

/-- Offers are listed as they were made, collections as they were created: in the order of time,
and nothing is dated in the future. Time never runs backwards in a run, and every entry carries
the time of its block. -/
theorem listed_by_date (collection : Address) (tokenId : UInt256) :
    OffersKept collection tokenId (deployment.history moves) (deployment.world moves) ∧
      Dated (fun tested => ((deployment.world moves).marketplace.collections tested).createdAt)
        (deployment.world moves).timestamp
        (deployment.world moves).marketplace.collectionAddresses := by
  have invariant := (deployment.trace moves).history_invariant
    (fun history w => Registry deployment.address w ∧ OffersKept collection tokenId history w ∧
      Dated (fun tested => (w.marketplace.collections tested).createdAt) w.timestamp
        w.marketplace.collectionAddresses)
    (by
      have lot := deployment.genesis_lot collection tokenId
      have offers : deployment.genesis.marketplace.itemOffers collection tokenId = [] :=
        congrArg Lot.offers lot
      have storage := NFTMarketplace.constructor_frame deployment.constructed
      have addresses : deployment.genesis.marketplace.collectionAddresses = [] := by
        simp only [genesis]
        rw [storage]
        rfl
      refine ⟨deployment.genesis_registry, ⟨offers, ?_, ?_⟩, ?_⟩
      · rw [offers]
        exact dated_nil _ _
      · simp [offers]
      · rw [addresses]
        exact dated_nil _ _)
    (by
      rintro event history w after effective ⟨registry, kept, dated⟩
      have change := deployment.change effective
      have later := (change.keeps registry).1
      exact ⟨change.registry registry,
        LotStep.offersKept (change.lot deployment.address_ne_zero registry collection tokenId)
          later kept,
        change.collections_dated registry dated⟩)
  exact invariant.2

end Deployment

end OpenBeach
