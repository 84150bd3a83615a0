import OpenBeach.Library.Sequences
import OpenBeach.Purchases

/-!
# What the marketplace shows of a collection's items

The enumeration of a collection's tokens grows by every listing, also when a token is
listed again. The scan for the floor price starts from the largest word and reports
zero when it ends there.
-/

namespace OpenBeach

open Function Mappings NestedCalls Sequences Buffers

/-- The token of a given collection that an event lists. Listings of other collections give none,
and neither do other events. -/
def listedToken (collection : Address) (receipt : ChainReceipt) : Option UInt256 :=
  match trade receipt.event with
  | some ((listedIn, tokenId), .listing _ _ _) =>
    if listedIn = collection then some tokenId else none
  | _ => none

/-- The tokens listed in a collection, in the order of their listings. A token is there once for
each of its listings. -/
def listedTokens (collection : Address) (history : List ChainReceipt) : List UInt256 :=
  chronicle (listedToken collection) history

/-- A number is in the list of a collection if some event listed that token. So the list of a
collection and the tallies of its tokens agree on what was listed. -/
theorem mem_listedTokens {collection : Address} {tokenId : UInt256}
    {history : List ChainReceipt} :
    tokenId ∈ listedTokens collection history ↔
      ∃ receipt ∈ history, lists collection tokenId receipt.event = true := by
  have same : ∀ receipt : ChainReceipt, listedToken collection receipt = some tokenId ↔
      lists collection tokenId receipt.event = true := by
    intro receipt
    rw [lists_eq_true]
    simp only [tradeOn_eq_some, listedToken]
    split
    · next listedIn listedId seller price fee seen =>
      by_cases here : listedIn = collection <;> simp [seen, here]
    · next unlisted =>
      constructor
      · intro impossible
        cases impossible
      · rintro ⟨seller, price, fee, listed⟩
        exact absurd listed (unlisted collection tokenId seller price fee)
  rw [listedTokens, mem_chronicle]
  simp only [same]

namespace Deployment

variable (deployment : Deployment) (moves : List (Move Action)) (collection : Address)

/-- The enumeration is the order of the listings. It grows at its end, by one token for every
listing of the collection. -/
theorem listings_order : (deployment.world moves).marketplace.collectionTokenIds collection =
    listedTokens collection (deployment.history moves) := by
  apply deployment.run_invariant moves fun history w =>
    w.marketplace.collectionTokenIds collection = listedTokens collection history
  · rw [genesis, NFTMarketplace.constructor_frame deployment.constructed]
    rfl
  · intro event history w after change registry same
    rw [listedTokens, chronicle_cons, ← listedTokens, ← same]
    cases change with
    | listed msg listedIn tokenId price s result =>
      by_cases here : listedIn = collection
      · subst here
        simp [listedToken, trade, NFTMarketplace.listing]
      · simp [listedToken, trade, NFTMarketplace.listing, here, update_of_ne (Ne.symm here)]
    | tokens _ _ _ _ _ quiet => simp [listedToken, quiet]
    | quiet _ _ _ _ _ _ _ quiet => simp [listedToken, quiet]
    | registered | sold | auctioned | bid | offered =>
      simp [listedToken, trade, NFTMarketplace.registering, NFTMarketplace.selling]

variable {collection : Address}

/-- The view returns an item for each entry of the enumeration. It is the stored record of the
token, as it is when the view is read. -/
theorem fetchCollectionItems_eq
    (registered : collection ∈ (deployment.world moves).marketplace.collectionAddresses) :
    (deployment.world moves).marketplace.fetchCollectionItems collection =
      .ok ((listedTokens collection (deployment.history moves)).map
        ((deployment.world moves).item collection)) := by
  have registry := deployment.registry moves
  have active := registry.active collection
  rw [(registry.registered collection).mp registered] at active
  simp only [NFTMarketplace.fetchCollectionItems, bind_ok, require_ok, exists_const, active,
    true_and]
  rw [deployment.listings_order moves collection]
  exact collect_ok .unset ((deployment.world moves).item collection) fun _ _ => rfl

/-- A listed token's record names the token. The items of the view can therefore be told apart by
their names. -/
theorem listedTokens_named {tokenId : UInt256}
    (listed : tokenId ∈ listedTokens collection (deployment.history moves)) :
    ((deployment.world moves).item collection tokenId).nftContract = collection ∧
      ((deployment.world moves).item collection tokenId).tokenId = tokenId := by
  apply listed_named deployment moves
  rw [← deployment.listings_order moves collection] at listed
  exact List.count_pos_iff.mpr listed

/-- The items of a collection are shown once each, in the order of their first listing, exactly if
no token of the collection was listed twice. A number is put in the list by every listing, and
there is one record for each number, so what repeats is the same record. -/
theorem collection_items_exact (collection : Address)
    (registered : collection ∈ (deployment.world moves).marketplace.collectionAddresses) :
    ((firsts (listedTokens collection (deployment.history moves))).Nodup ∧
      ∀ tokenId, tokenId ∈ firsts (listedTokens collection (deployment.history moves)) ↔
        ∃ receipt ∈ deployment.history moves, lists collection tokenId receipt.event = true) ∧
    ((∃ items, (deployment.world moves).marketplace.fetchCollectionItems collection = .ok items ∧
        items.map MarketItem.tokenId = firsts (listedTokens collection (deployment.history moves)) ∧
        ∀ item ∈ items, item.nftContract = collection ∧
          item = (deployment.world moves).item collection item.tokenId) ↔
      (listedTokens collection (deployment.history moves)).Nodup) := by
  refine ⟨⟨nodup_firsts _, fun tokenId => mem_firsts.trans mem_listedTokens⟩, ?_⟩
  have named : ∀ tokenId ∈ listedTokens collection (deployment.history moves),
      ((deployment.world moves).item collection tokenId).nftContract = collection ∧
        ((deployment.world moves).item collection tokenId).tokenId = tokenId :=
    fun _ listed => deployment.listedTokens_named moves listed
  have tokenIds : ((listedTokens collection (deployment.history moves)).map
      ((deployment.world moves).item collection)).map MarketItem.tokenId =
      listedTokens collection (deployment.history moves) := by
    rw [List.map_map]
    refine (List.map_congr_left ?_).trans (List.map_id _)
    exact fun tokenId listed => (named tokenId listed).2
  rw [deployment.fetchCollectionItems_eq moves registered]
  simp only [Except.ok.injEq, exists_eq_left', tokenIds]
  constructor
  · rintro ⟨whole, _⟩
    apply firsts_length.mp
    rw [← whole]
  · intro distinct
    refine ⟨(firsts_eq_self distinct).symm, ?_⟩
    intro item member
    obtain ⟨tokenId, listed, rfl⟩ := List.mem_map.mp member
    obtain ⟨ofCollection, ofToken⟩ := named tokenId listed
    exact ⟨ofCollection, by rw [ofToken]⟩

/-- The items of the sample, each shown once, since no token was listed twice. The condition of
the theorem holds, and so does what it says. -/
theorem sampleListing_items :
    ∃ items, (sample.world sampleListing).marketplace.fetchCollectionItems 100 = .ok items ∧
      items.map MarketItem.tokenId = firsts (listedTokens 100 (sample.history sampleListing)) := by
  obtain ⟨items, fetched, shown, _⟩ :=
    (collection_items_exact sample sampleListing 100 (by decide +kernel)).2.mpr (by decide +kernel)
  exact ⟨items, fetched, shown⟩

/-- After a sale and another listing by the buyer the one item is shown twice. Both entries show
the record of the second listing. -/
theorem item_shown_twice :
    listedTokens 100 (sample.history resold) = [1, 1] ∧
      ((sample.world resold).marketplace.fetchCollectionItems 100).map
        (List.map MarketItem.tokenId) = .ok [1, 1] := by
  refine ⟨by decide +kernel, by rfl⟩

/-- Every token on sale is enumerated. An item gets on sale by a listing, which enters the token
there. -/
theorem onSale_listed {tokenId : UInt256}
    (onSale : ((deployment.world moves).item collection tokenId).isOnSale = true) :
    tokenId ∈ (deployment.world moves).marketplace.collectionTokenIds collection := by
  apply List.count_pos_iff.mp
  refine deployment.lot_invariant moves collection tokenId
    (fun _ lot => lot.item.isOnSale = true → 0 < lot.listings) ?_ ?_ onSale
  · intro impossible
    cases impossible
  · intro event history w after step sound inductionHypothesis
    generalize tradeOn collection tokenId event = kind at step
    cases step with
    | listing => exact fun _ => Nat.succ_pos _
    | sale =>
      intro impossible
      cases impossible
    | idle | auction | bid | offer => exact inductionHypothesis

end Deployment

namespace NFTMarketplace

/-- The scan, before its result is told apart from the bound it started from. A result that equals
the bound is taken for no result at all. -/
def lowestPrice (s : NFTMarketplace) (collection : Address) : UInt256 :=
  lowest (fun tokenId => (s.collectionToMarketItems collection tokenId).isOnSale)
    (fun tokenId => (s.collectionToMarketItems collection tokenId).price) Word.max
    (s.collectionTokenIds collection)

/-- The floor price is the lowest price, unless that is the sentinel the search for it starts
from, which is shown as zero. -/
theorem getFloorPrice_eq (s : NFTMarketplace) (collection : Address) :
    s.getFloorPrice collection =
      if s.lowestPrice collection = Word.max then 0 else s.lowestPrice collection :=
  rfl

/-- A price is the lowest of a collection's tokens on sale, and zero stands for none. With a price
of zero on sale the two readings of zero cannot be told apart. -/
structure IsFloor (s : NFTMarketplace) (collection : Address) (floor : UInt256) : Prop where
  below : ∀ tokenId, (s.collectionToMarketItems collection tokenId).isOnSale = true →
    floor ≤ (s.collectionToMarketItems collection tokenId).price
  attained : (∃ tokenId, (s.collectionToMarketItems collection tokenId).isOnSale = true) →
    ∃ tokenId, (s.collectionToMarketItems collection tokenId).isOnSale = true ∧
      (s.collectionToMarketItems collection tokenId).price = floor
  vacant : floor = 0 ↔
    ∀ tokenId, (s.collectionToMarketItems collection tokenId).isOnSale = false

/-- The scan misses its purpose at two prices: a zero price looks like nothing on sale,
and so does the largest word. -/
theorem isFloor_iff (s : NFTMarketplace) (collection : Address)
    (enumerated : ∀ tokenId, (s.collectionToMarketItems collection tokenId).isOnSale = true →
      tokenId ∈ s.collectionTokenIds collection) :
    s.IsFloor collection (s.getFloorPrice collection) ↔
      (∀ tokenId, (s.collectionToMarketItems collection tokenId).isOnSale = true →
          (s.collectionToMarketItems collection tokenId).price ≠ 0) ∧
        ((∃ tokenId, (s.collectionToMarketItems collection tokenId).isOnSale = true) →
          ∃ tokenId, (s.collectionToMarketItems collection tokenId).isOnSale = true ∧
            (s.collectionToMarketItems collection tokenId).price ≠ Word.max) := by
  have below : ∀ tokenId, (s.collectionToMarketItems collection tokenId).isOnSale = true →
      s.lowestPrice collection ≤ (s.collectionToMarketItems collection tokenId).price :=
    fun tokenId onSale => (lowest_le _ _ _ _).2 tokenId (enumerated tokenId onSale) onSale
  have reached : s.lowestPrice collection = Word.max ∨
      ∃ tokenId ∈ s.collectionTokenIds collection,
        (s.collectionToMarketItems collection tokenId).isOnSale = true ∧
          (s.collectionToMarketItems collection tokenId).price = s.lowestPrice collection :=
    lowest_mem _ _ _ _
  rw [getFloorPrice_eq]
  constructor
  · intro isFloor
    constructor
    · intro tokenId onSale free
      have zero : s.lowestPrice collection = 0 := by
        have least := below tokenId onSale
        rw [free, Word.le_def, Word.toNat_zero] at least
        exact Word.toNat_eq_zero.mp (Nat.le_zero.mp least)
      have shown := isFloor.vacant.mp (by rw [zero, ite_self])
      exact absurd (onSale.symm.trans (shown tokenId)) (by decide)
    · rintro ⟨tokenId, onSale⟩
      by_contra dear
      push Not at dear
      have bound : s.lowestPrice collection = Word.max := by
        rcases reached with bound | ⟨lowestId, _, lowestOnSale, same⟩
        · exact bound
        · exact same.symm.trans (dear lowestId lowestOnSale)
      have shown := isFloor.vacant.mp (if_pos bound)
      exact absurd (onSale.symm.trans (shown tokenId)) (by decide)
  · rintro ⟨priced, affordable⟩
    by_cases bound : s.lowestPrice collection = Word.max
    · have vacant : ∀ tokenId,
          ¬ (s.collectionToMarketItems collection tokenId).isOnSale = true := by
        intro tokenId onSale
        obtain ⟨cheapId, cheapOnSale, cheap⟩ := affordable ⟨tokenId, onSale⟩
        have least := below cheapId cheapOnSale
        rw [bound] at least
        exact cheap (le_antisymm (Word.le_max _) least)
      rw [if_pos bound]
      exact
        { below := fun tokenId onSale => absurd onSale (vacant tokenId)
          attained := fun ⟨tokenId, onSale⟩ => absurd onSale (vacant tokenId)
          vacant := iff_of_true rfl fun tokenId => Bool.eq_false_iff.mpr (vacant tokenId) }
    · obtain ⟨lowestId, _, onSale, same⟩ := reached.resolve_left bound
      rw [if_neg bound]
      refine ⟨below, fun _ => ⟨lowestId, onSale, same⟩, ?_⟩
      constructor
      · intro zero
        exact absurd (same.trans zero) (priced lowestId onSale)
      · intro vacant
        exact absurd (onSale.symm.trans (vacant lowestId)) (by decide)

end NFTMarketplace

namespace Deployment

variable (deployment : Deployment) (moves : List (Move Action)) (collection : Address)

/-- The floor price of a collection is the lowest price of all its tokens on sale, and zero
exactly if there are none, unless a token is on sale for nothing or every token on sale costs the
largest word. An auction from zero puts a token on sale for nothing, and the scan starts from the
largest word, which stands for no price at all. -/
theorem floor_price_exact :
    (deployment.world moves).marketplace.IsFloor collection
        ((deployment.world moves).marketplace.getFloorPrice collection) ↔
      (∀ tokenId, ((deployment.world moves).item collection tokenId).isOnSale = true →
          ((deployment.world moves).item collection tokenId).price ≠ 0) ∧
        ((∃ tokenId, ((deployment.world moves).item collection tokenId).isOnSale = true) →
          ∃ tokenId, ((deployment.world moves).item collection tokenId).isOnSale = true ∧
            ((deployment.world moves).item collection tokenId).price ≠ Word.max) :=
  (deployment.world moves).marketplace.isFloor_iff collection
    fun _ onSale => deployment.onSale_listed moves onSale

/-- Account 11 auctions its token from a price of zero. The floor of the collection is then zero
although a token is on sale. -/
def freeAuction : List (Move Action) :=
  sampleListing ++ [.act (.marketplace ⟨11, 0⟩ (.createAuction 100 1 0 100))]

/-- Account 11 lists its token for as much as a word can hold. The price equals the bound the scan
starts from, so that the scan reports none. -/
def dearListing : List (Move Action) :=
  sampleListing.dropLast ++
    [.act (.marketplace ⟨11, NFTMarketplace.initialListingFee⟩ (.createMarketItem 100 1 Word.max))]

/-- Both show a floor price of zero while the token is on sale. In one run it is auctioned from
nothing, in the other it costs the largest word. -/
theorem floor_price_zero :
    (((sample.world freeAuction).item 100 1).isOnSale = true ∧
      ((sample.world freeAuction).item 100 1).price = 0 ∧
      (sample.world freeAuction).marketplace.getFloorPrice 100 = 0) ∧
    ((sample.world dearListing).item 100 1).isOnSale = true ∧
      ((sample.world dearListing).item 100 1).price = Word.max ∧
      (sample.world dearListing).marketplace.getFloorPrice 100 = 0 := by
  decide +kernel

end Deployment

end OpenBeach
