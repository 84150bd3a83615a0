import Mathlib.Data.List.Nodup
import OpenBeach.Sales
import OpenBeach.Views

/-!
# The purchase history view

The view finds a bought token once for every listing of the token, while the counter
that sizes its result counts purchases. The two agree exactly as long as every token
the user bought was listed only once; a later listing, by anybody, breaks the view.
-/

namespace OpenBeach

open Function Mappings NestedCalls NFTMarketplace

section Facts

variable (deployment : Deployment) (moves : List (Move Action)) (user collection : Address)
  (tokenId : UInt256)

/-- The purchase map records who bought the token. It is set in a sale and never cleared, so it
says whether there ever was such a sale. -/
theorem buyers_exact :
    (deployment.world moves).marketplace.userPurchases user collection tokenId =
        true ↔
      0 < tally (salesTo user) collection tokenId (deployment.history moves) := by
  refine deployment.lot_invariant moves collection tokenId
    (fun history lot => lot.buyers user = true ↔
      0 < tally (salesTo user) collection tokenId history) (by simp [Lot.unset, tally]) ?_
  intro event history w after step sound inductionHypothesis
  rw [tally_cons]
  generalize tradeOn collection tokenId event = kind at step
  cases step with
  | sale buyer nonzero other onSale fixed held =>
    simp only [Option.elim_some, salesTo]
    by_cases same : user = buyer
    · subst same
      simp
    · rw [update_of_ne same, if_neg (Ne.symm same), Nat.zero_add]
      exact inductionHypothesis
  | idle | listing | auction | bid | offer =>
    simp only [Option.elim_some, Option.elim_none, salesTo, Nat.zero_add]
    exact inductionHypothesis

/-- The record of a token that was ever listed names the token. An item is written by listings
first, under the key they name. -/
theorem listed_named
    (listed : 0 < ((deployment.world moves).lot collection tokenId).listings) :
    ((deployment.world moves).item collection tokenId).nftContract = collection ∧
      ((deployment.world moves).item collection tokenId).tokenId = tokenId := by
  refine deployment.lot_invariant moves collection tokenId
    (fun _ lot => 0 < lot.listings →
      lot.item.nftContract = collection ∧ lot.item.tokenId = tokenId)
    (fun impossible => absurd impossible (Nat.lt_irrefl 0)) ?_ listed
  intro event history w after step sound inductionHypothesis
  generalize tradeOn collection tokenId event = kind at step
  cases step with
  | listing => exact fun _ => ⟨rfl, rfl⟩
  | idle | sale | auction | bid | offer => exact inductionHypothesis

/-- Tokens are listed in registered collections only. The marketplace lists nothing for a contract
it did not create. -/
theorem unregistered_unlisted
    (absent : collection ∉ (deployment.world moves).marketplace.collectionAddresses) :
    (deployment.world moves).marketplace.collectionTokenIds collection = [] := by
  have registered := (deployment.registry moves).registered collection
  have deployedIfListed := deployment.run_invariant moves
    (fun _ w => w.marketplace.collectionTokenIds collection ≠ [] →
      (w.deployed collection).isSome = true)
    (by
      have storage := constructor_frame deployment.constructed
      simp only [Deployment.genesis]
      rw [storage]
      exact fun impossible => absurd rfl impossible)
    (by
      intro event history w after change registry inductionHypothesis
      cases change with
      | listed msg listedCollection listedId price s result outside funded unlocked active positive
          fee found moved =>
        intro nonempty
        rw [isSome_update found]
        by_cases same : collection = listedCollection
        · subst same
          rw [found]
          rfl
        · exact inductionHypothesis (by simpa [listing, same] using nonempty)
      | registered msg name symbol baseURI category newCollection =>
        intro nonempty
        by_cases same : collection = newCollection
        · subst same
          simp
        · simpa [same] using inductionHypothesis nonempty
      | sold msg _ _ s result count outside funded unlocked onSale fixed price accepts found =>
        intro nonempty
        rw [isSome_update found]
        exact inductionHypothesis nonempty
      | tokens _ changed s result collections quiet unforced found =>
        intro nonempty
        rw [isSome_update found]
        exact inductionHypothesis nonempty
      | auctioned | bid | offered | quiet => exact inductionHypothesis)
  by_contra nonempty
  exact absent (registered.mpr (deployedIfListed nonempty))

/-- The scan finds a bought token once for each listing. The enumeration holds a token as often as
it was listed. -/
theorem purchasedKeys_count :
    ((deployment.world moves).marketplace.purchasedKeys user).count
        (collection, tokenId) =
      if (deployment.world moves).marketplace.userPurchases user collection tokenId =
          true then
        ((deployment.world moves).marketplace.collectionTokenIds collection).count
          tokenId
      else 0 := by
  unfold purchasedKeys
  rw [count_tagged]
  have filtered : ∀ ids : List UInt256,
      (ids.filter ((deployment.world moves).marketplace.userPurchases user
        collection)).count tokenId =
      if (deployment.world moves).marketplace.userPurchases user collection tokenId =
        true then ids.count tokenId else 0 := by
    intro ids
    by_cases bought :
        (deployment.world moves).marketplace.userPurchases user collection tokenId = true
    · rw [if_pos bought, List.count_filter bought]
    · rw [if_neg bought, List.count_eq_zero]
      simp [bought]
  rw [filtered]
  by_cases registered :
      collection ∈ (deployment.world moves).marketplace.collectionAddresses
  · rw [List.count_eq_one_of_mem (deployment.registry moves).distinct registered, Nat.one_mul]
  · rw [unregistered_unlisted deployment moves collection registered]
    simp

end Facts

/-- What the view promises: current items, no blanks, one for each token bought. Together they say
that the view is exact, whatever its order. -/
structure ExactPurchases (user : Address) (s : NFTMarketplace) (items : List MarketItem) :
    Prop where
  current : ∀ item ∈ items, item = s.collectionToMarketItems item.nftContract item.tokenId
  written : ∀ item ∈ items, item ≠ .unset
  once : ∀ collection tokenId,
    items.countP (fun item => item.nftContract = collection ∧ item.tokenId = tokenId) =
      if s.userPurchases user collection tokenId = true then 1 else 0

section View

variable (deployment : Deployment) (moves : List (Move Action)) (user : Address)

/-- The scan finds tokens that were bought and listed. The scan walks the enumerations of the
registered collections and asks the purchase map. -/
theorem purchasedKeys_listed {key : Address × UInt256}
    (found : key ∈ (deployment.world moves).marketplace.purchasedKeys user) :
    (deployment.world moves).marketplace.userPurchases user key.1 key.2 = true ∧
      0 < ((deployment.world moves).lot key.1 key.2).listings := by
  have counted := purchasedKeys_count deployment moves user key.1 key.2
  have positive := List.count_pos_iff.mpr found
  rw [counted] at positive
  split at positive
  · next bought => exact ⟨bought, positive⟩
  · exact absurd positive (Nat.lt_irrefl 0)

/-- Every token the scan finds has an item under its own name. So the view can be read by the
names in its items. -/
theorem purchasedKeys_named
    {key : Address × UInt256}
    (found : key ∈ (deployment.world moves).marketplace.purchasedKeys user) :
    ((deployment.world moves).item key.1 key.2).nftContract = key.1 ∧
      ((deployment.world moves).item key.1 key.2).tokenId = key.2 :=
  listed_named deployment moves key.1 key.2 (purchasedKeys_listed deployment moves user found).2

/-- No such item is blank: the zero address has no collection. So a blank in the result of the
view is a slot that was never filled. -/
theorem purchasedKeys_written {key : Address × UInt256}
    (found : key ∈ (deployment.world moves).marketplace.purchasedKeys user) :
    (deployment.world moves).item key.1 key.2 ≠ .unset := by
  intro blank
  obtain ⟨contract, _⟩ := purchasedKeys_named deployment moves user found
  obtain ⟨collection, registered, here⟩ := List.mem_flatMap.mp found
  obtain ⟨tokenId, _, rfl⟩ := List.mem_map.mp here
  have zero : collection = 0 := by
    rw [blank] at contract
    exact contract.symm
  rw [(deployment.registry moves).registered, zero, (deployment.registry moves).zeroAbsent]
    at registered
  cases registered

/-- The items the scan finds under one name are its visits to that token. The name of an item is
the key it is stored under. -/
theorem countP_found (collection : Address) (tokenId : UInt256) :
    ((((deployment.world moves).marketplace.purchasedKeys user).map fun key =>
        (deployment.world moves).marketplace.collectionToMarketItems key.1 key.2).countP
      fun item => item.nftContract = collection ∧ item.tokenId = tokenId) =
      ((deployment.world moves).marketplace.purchasedKeys user).count
        (collection, tokenId) := by
  rw [List.countP_map, List.count_eq_countP]
  apply List.countP_congr
  intro key found
  obtain ⟨contract, token⟩ := purchasedKeys_named deployment moves user found
  have here : (deployment.world moves).marketplace.collectionToMarketItems key.1 key.2 =
      (deployment.world moves).item key.1 key.2 := rfl
  simp only [Function.comp_apply, here, contract, token, decide_eq_true_eq, beq_iff_eq, Prod.ext_iff]

/-- A token bought and listed once was bought once. The sales of a token are no more than its
listings, and this token has one. -/
theorem bought_once (collection : Address) (tokenId : UInt256)
    (once : (deployment.world moves).marketplace.userPurchases user collection tokenId =
      true →
      ((deployment.world moves).marketplace.collectionTokenIds collection).count
        tokenId = 1) :
    tally (salesTo user) collection tokenId (deployment.history moves) =
      ((deployment.world moves).marketplace.purchasedKeys user).count
        (collection, tokenId) := by
  have bought := buyers_exact deployment moves user collection tokenId
  have mine := tally_mono (salesTo_le user) collection tokenId (deployment.history moves)
  have alternate := sales_and_listings deployment moves collection tokenId
  have listings := listings_exact deployment moves collection tokenId
  rw [purchasedKeys_count]
  simp only [World.lot] at listings
  split
  · next purchased =>
    have single := once purchased
    have some_sale := bought.mp purchased
    omega
  · next never =>
    have none_sale : ¬ 0 < tally (salesTo user) collection tokenId
        (deployment.history moves) := fun sale => never (bought.mpr sale)
    omega

/-- The purchase history of a user can be read, and is exact, in exactly the states in which every
token the user ever bought was listed only once. The view counts purchases, but fills its array by
listings; a token that was listed twice is visited twice, and the second visit writes behind the
end. -/
theorem purchases_exact_iff :
    (∃ items, (deployment.world moves).marketplace.fetchUserPurchasedItems user =
        .ok items ∧
      ExactPurchases user (deployment.world moves).marketplace items) ↔
    ∀ collection tokenId,
      (deployment.world moves).marketplace.userPurchases user collection tokenId =
        true →
      ((deployment.world moves).marketplace.collectionTokenIds collection).count
        tokenId = 1 := by
  constructor
  · rintro ⟨items, fetched, exact⟩ collection tokenId bought
    obtain ⟨_, rfl⟩ := fetchUserPurchasedItems_ok.mp fetched
    have unblank : ((deployment.world moves).marketplace.userPurchaseCount user).toNat -
        ((deployment.world moves).marketplace.purchasedKeys user).length = 0 := by
      by_contra blanks
      have blank : MarketItem.unset ∈ List.replicate _ MarketItem.unset :=
        List.mem_replicate.mpr ⟨blanks, rfl⟩
      exact exact.written .unset (List.mem_append_right _ blank) rfl
    have once := exact.once collection tokenId
    rw [if_pos bought, List.countP_append, countP_found, unblank, purchasedKeys_count,
      if_pos bought] at once
    simpa using once
  · intro once
    have counted : ((deployment.world moves).marketplace.userPurchaseCount user).toNat =
        ((deployment.world moves).marketplace.purchasedKeys user).length := by
      rw [purchaseCount_exact, ← total_tally, ← total₂_count]
      congr 1
      funext collection tokenId
      exact bought_once deployment moves user collection tokenId (once collection tokenId)
    refine ⟨_, fetchUserPurchasedItems_ok.mpr ⟨counted.ge, rfl⟩, ?_⟩
    rw [counted, Nat.sub_self, List.replicate_zero, List.append_nil]
    refine ⟨?_, ?_, ?_⟩
    · intro item member
      obtain ⟨key, found, rfl⟩ := List.mem_map.mp member
      obtain ⟨contract, token⟩ := purchasedKeys_named deployment moves user found
      simp only [World.item] at contract token
      rw [contract, token]
    · intro item member
      obtain ⟨key, found, rfl⟩ := List.mem_map.mp member
      exact purchasedKeys_written deployment moves user found
    · intro collection tokenId
      rw [countP_found, purchasedKeys_count]
      by_cases bought :
          (deployment.world moves).marketplace.userPurchases user collection tokenId = true
      · rw [if_pos bought, if_pos bought]
        exact once collection tokenId bought
      · rw [if_neg bought, if_neg bought]

/-- Account 12 buys the token of account 11 and lists it again, and account 13 buys it. -/
def resold : List (Move Action) :=
  Deployment.sampleListing ++
    [.act (.marketplace ⟨12, 1000⟩ (.createMarketSale 100 1)),
      .act (.collection 12 100 (.approve 1 1)),
      .act (.marketplace ⟨12, initialListingFee⟩ (.createMarketItem 100 1 2000)),
      .act (.marketplace ⟨13, 2000⟩ (.createMarketSale 100 1))]

/-- A purchase history that cannot be read any more: the view of account 12 writes out of bounds.
It bought one token, whose number is in the list twice by then, so an array of one entry is
written twice. -/
theorem purchases_unreadable :
    let s := (Deployment.sample.world resold).marketplace
    s.userPurchases 12 100 1 = true ∧ s.userPurchaseCount 12 = 1 ∧
      s.collectionTokenIds 100 = [1, 1] ∧
      s.fetchUserPurchasedItems 12 = .error (.panic 0x32) := by
  refine ⟨by decide +kernel, by decide +kernel, by decide +kernel, by rfl⟩

end View

end OpenBeach
