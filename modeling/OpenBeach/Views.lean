import OpenBeach.Library.Buffers
import OpenBeach.NFTMarketplace

/-!
# Views of the marketplace

View functions read the contract's storage and build their results in memory. A
result array is allocated at its final length first, so a loop that writes more
entries than it counted panics.
-/

namespace OpenBeach.NFTMarketplace

open Buffers

/-- A collection's record with its statistics. Two of the three figures are placeholders. -/
structure CollectionDetails where
  basic : Collection
  floorPrice : UInt256
  totalVolume : UInt256
  ownerCount : UInt256
deriving DecidableEq

/-- What a slot of a new array holds before the loop fills it. It is shown for no collection,
since every slot is filled. -/
def CollectionDetails.unset : CollectionDetails := ⟨.unset, 0, 0, 0⟩

/-- `getCategories` returns the list as it is. -/
def getCategories (s : NFTMarketplace) : List Bytes := s.categories

/-- `_getFloorPrice`: the lowest price on sale, found by a scan that starts from the largest word.
If the scan ends there, the result is zero. -/
def getFloorPrice (collectionAddress : Address) (s : NFTMarketplace) : UInt256 :=
  let tokenIds := s.collectionTokenIds collectionAddress
  let lowestPrice := tokenIds.foldl
    (fun lowestPrice tokenId =>
      let item := s.collectionToMarketItems collectionAddress tokenId
      if item.isOnSale = true ∧ item.price < lowestPrice then item.price else lowestPrice)
    Word.max
  if lowestPrice = Word.max then 0 else lowestPrice

/-- `_getTotalVolume`, a placeholder. It is shown with the other figures all the same. -/
def getTotalVolume (_collectionAddress : Address) (_s : NFTMarketplace) : UInt256 := 0

/-- `_getUniqueOwnerCount`, a placeholder. It is shown with the other figures all the same. -/
def getUniqueOwnerCount (_collectionAddress : Address) (_s : NFTMarketplace) : UInt256 := 0

/-- `getCollectionDetails` returns the record of a registered collection. Any other address is
refused. -/
def getCollectionDetails (collectionAddress : Address) (s : NFTMarketplace) :
    Except Revert Collection := do
  require ((s.collections collectionAddress).isActive = true) "Collection does not exist"
  pure (s.collections collectionAddress)

/-- `fetchCollectionDetails` returns the record with its figures. The volume it shows is always
zero, since `_getTotalVolume` is a stub. -/
def fetchCollectionDetails (collectionAddress : Address) (s : NFTMarketplace) :
    Except Revert CollectionDetails := do
  require ((s.collections collectionAddress).isActive = true) "Collection does not exist"
  let basic := s.collections collectionAddress
  let floorPrice := s.getFloorPrice collectionAddress
  let totalVolume := s.getTotalVolume collectionAddress
  let ownerCount := s.getUniqueOwnerCount collectionAddress
  pure { basic, floorPrice, totalVolume, ownerCount }

/-- `fetchCollections` shows every collection there is, in the order of creation. Each of them
goes through the check of the single view again. -/
def fetchCollections (s : NFTMarketplace) : Except Revert (List CollectionDetails) :=
  collect (.panic 0x32) .unset (fun collectionAddress => s.fetchCollectionDetails collectionAddress)
    s.collectionAddresses

/-- `fetchUserCreatedCollections` shows those that an account created. They are in the order of
creation too. -/
def fetchUserCreatedCollections (user : Address) (s : NFTMarketplace) :
    Except Revert (List CollectionDetails) :=
  collect (.panic 0x32) .unset (fun collectionAddress => s.fetchCollectionDetails collectionAddress)
    (s.userCreatedCollections user)

/-- `fetchCollectionsByCategory` reads the index of one category by its exact name, which has to
exist. -/
def fetchCollectionsByCategory (category : Bytes) (s : NFTMarketplace) :
    Except Revert (List Collection) := do
  require (s.categoryExists category = true) "Category does not exist"
  collect (.panic 0x32) .unset (fun collectionAddress => pure (s.collections collectionAddress))
    (s.categoryToCollections category)

/-- `fetchCollectionItems` shows the record of every number in the list of a collection, once for
each time it is in the list. -/
def fetchCollectionItems (collectionAddress : Address) (s : NFTMarketplace) :
    Except Revert (List MarketItem) := do
  require ((s.collections collectionAddress).isActive = true) "Collection does not exist"
  collect (.panic 0x32) .unset
    (fun tokenId => pure (s.collectionToMarketItems collectionAddress tokenId))
    (s.collectionTokenIds collectionAddress)

/-- `fetchUserPurchasedItems`. The array is sized by the purchase counter and filled by
a scan over all collections and their lists of token identifiers. -/
def fetchUserPurchasedItems (user : Address) (s : NFTMarketplace) :
    Except Revert (List MarketItem) := do
  let totalItemCount := s.userPurchaseCount user
  let purchasedItems := List.replicate totalItemCount.toNat MarketItem.unset
  let (purchasedItems, _) ← s.collectionAddresses.foldlM
    (fun buffer collectionAddress =>
      (s.collectionTokenIds collectionAddress).foldlM
        (fun buffer tokenId =>
          if s.userPurchases user collectionAddress tokenId = true then
            store (.panic 0x32) buffer (s.collectionToMarketItems collectionAddress tokenId)
          else pure buffer)
        buffer)
    (purchasedItems, 0)
  pure purchasedItems

/-- The tokens the scan finds, in its order. A number that is listed twice is visited twice. -/
def purchasedKeys (user : Address) (s : NFTMarketplace) : List (Address × UInt256) :=
  s.collectionAddresses.flatMap fun collectionAddress =>
    ((s.collectionTokenIds collectionAddress).filter
      (s.userPurchases user collectionAddress)).map fun tokenId => (collectionAddress, tokenId)

/-- The view succeeds exactly if the counter covers the tokens found, and returns their
items before the blanks that remain. -/
theorem fetchUserPurchasedItems_ok {user : Address} {s : NFTMarketplace}
    {items : List MarketItem} :
    s.fetchUserPurchasedItems user = .ok items ↔
      (s.purchasedKeys user).length ≤ (s.userPurchaseCount user).toNat ∧
        items = (s.purchasedKeys user).map (fun key => s.collectionToMarketItems key.1 key.2) ++
          List.replicate ((s.userPurchaseCount user).toNat - (s.purchasedKeys user).length)
            MarketItem.unset := by
  have scan : ∀ buffer : List MarketItem × Nat,
      s.collectionAddresses.foldlM
        (fun buffer collectionAddress =>
          (s.collectionTokenIds collectionAddress).foldlM
            (fun buffer tokenId =>
              if s.userPurchases user collectionAddress tokenId = true then
                store (Revert.panic 0x32) buffer
                  (s.collectionToMarketItems collectionAddress tokenId)
              else pure buffer)
            buffer)
        buffer =
      ((s.purchasedKeys user).map fun key => s.collectionToMarketItems key.1 key.2).foldlM
        (store (Revert.panic 0x32)) buffer := by
    intro buffer
    unfold purchasedKeys
    rw [List.map_flatMap, foldlM_flatMap]
    simp only [List.foldlM_map, List.foldlM_filter]
  unfold fetchUserPurchasedItems
  simp only [scan, bind_ok, pure_ok, Prod.exists]
  have start : (List.replicate (s.userPurchaseCount user).toNat MarketItem.unset, 0) =
      filled [] (s.userPurchaseCount user).toNat MarketItem.unset := rfl
  rw [start]
  simp only [fill_ok, List.length_map]
  simp only [filled, List.nil_append, Prod.mk.injEq]
  constructor
  · rintro ⟨_, _, ⟨covered, rfl, rfl⟩, rfl⟩
    exact ⟨covered, rfl⟩
  · rintro ⟨covered, rfl⟩
    exact ⟨_, _, ⟨covered, rfl, rfl⟩, rfl⟩

end OpenBeach.NFTMarketplace
