import OpenBeach.Custody
import OpenBeach.Minting

/-!
# The URI a listing shows

A listing copies the URI of its token and nothing refreshes the copy. A token exists
before its URI is stored, so a listing made while the token's own mint call is still in
progress copies the empty string.
-/

namespace OpenBeach

open Function Mappings NestedCalls

/-- The mint calls of the collection in progress when the token was last listed. If it was never
listed there is nothing to tell. -/
def mintsAtListing (this collection : Address) (tokenId : UInt256) :
    List ChainReceipt → List (UInt256 × Bytes)
  | [] => []
  | receipt :: older =>
    if lists collection tokenId receipt.event = true then openMints this collection older
    else mintsAtListing this collection tokenId older

section Steps

variable {this : Address} {w after : World} {event : ChainEvent}

/-- Only listings write the URI of an item. A sale, a bid or an auction leaves it as it was. -/
theorem LotStep.unlisted {collection : Address} {tokenId now : UInt256} {lot changed : Lot}
    {kind : Option TradeEvent} (step : LotStep this collection tokenId now lot kind changed)
    (unlisted : ∀ seller price fee, kind ≠ some (.listing seller price fee)) :
    changed.item.tokenURI = lot.item.tokenURI := by
  cases step with
  | listing => exact absurd rfl (unlisted _ _ _)
  | idle | sale | auction | bid | offer => rfl

/-- Listing a token copies its stored URI; the other events leave the copy alone. The copy is what
the collection told at that moment. -/
theorem Change.shown (change : Change this w event after) (nonzero : this ≠ 0)
    (registry : Registry this w) (collection : Address) (tokenId : UInt256) :
    (lists collection tokenId event = true ∧ catalogueEvent ⟨w, event⟩ = none ∧
        ∃ s, w.deployed collection = some s ∧ s.owners tokenId ≠ 0 ∧
          (after.item collection tokenId).tokenURI = s.tokenURIs tokenId) ∨
      lists collection tokenId event = false ∧
        (after.item collection tokenId).tokenURI = (w.item collection tokenId).tokenURI := by
  cases listed : lists collection tokenId event with
  | false =>
    have step := change.lot nonzero registry collection tokenId
    exact .inr ⟨rfl, step.unlisted (lists_eq_false.mp listed)⟩
  | true =>
    obtain ⟨seller, price, fee, here⟩ := lists_eq_true.mp listed
    have traded := tradeOn_eq_some.mp here
    cases change with
    | listed msg listedIn listedId asked s result outside funded unlocked active positive paid found
        moved =>
      obtain ⟨⟨rfl, rfl⟩, _⟩ : (listedIn = collection ∧ listedId = tokenId) ∧ _ := by
        simpa [trade] using traded
      obtain ⟨_, _, owned, rfl⟩ := NFTCollection.transferFrom_ok.mp moved
      refine .inl ⟨rfl, rfl, s, found, owned ▸ (outside_iff.mp outside).1, ?_⟩
      simp [World.item, NFTMarketplace.listing, NFTMarketplace.listedItem]
    | registered | sold | auctioned | bid | offered => simp [trade] at traded
    | tokens _ _ _ _ _ quiet => cases quiet.symm.trans traded
    | quiet _ _ _ _ _ _ _ quiet => cases quiet.symm.trans traded

end Steps

/-- The URI that an item shows. Its token was created by a known mint call; the item shows
the URI of that call, unless the call was still in progress when the token was listed. -/
structure ShownURI (tokenId : UInt256) (mints completed atListing : List (UInt256 × Bytes))
    (shown tokenURI : Bytes) : Prop where
  created : (tokenId, tokenURI) ∈ mints ++ completed
  unique : ∀ other, (tokenId, other) ∈ atListing → other = tokenURI
  early : (tokenId, tokenURI) ∈ atListing → shown = []
  late : (tokenId, tokenURI) ∉ atListing → shown = tokenURI

/-- A listing copies what an accounted collection stores. It is empty if the mint of the token was
still in progress then. -/
theorem Accounted.shown {mints completed : List (UInt256 × Bytes)} {issue : Issue}
    (accounted : Accounted mints completed issue) {tokenId : UInt256}
    (existing : issue.existing tokenId = true) :
    ∃ tokenURI, ShownURI tokenId mints completed mints (issue.tokenURIs tokenId) tokenURI := by
  obtain ⟨⟨_, tokenURI⟩, member, rfl⟩ := List.mem_map.mp ((accounted.covered tokenId).mpr existing)
  refine ⟨tokenURI, member, ?_, fun here => accounted.unlabelled _ here, ?_⟩
  · exact fun other here => accounted.unique (List.mem_append_left completed here) member
  · intro absent
    rcases List.mem_append.mp member with here | here
    · exact absurd here absent
    · exact accounted.labelled _ here

namespace Deployment

variable (deployment : Deployment) (moves : List (Move Action)) (collection : Address)
  (tokenId : UInt256)

/-- What every listed item of every reachable state shows. What it shows was fixed by the latest
listing. -/
theorem shown_uri
    (listed : ∃ receipt ∈ deployment.history moves, lists collection tokenId receipt.event = true) :
    ∃ tokenURI, ShownURI tokenId
      (openMints deployment.address collection (deployment.history moves))
      (completedMints deployment.address collection (deployment.history moves))
      (mintsAtListing deployment.address collection tokenId (deployment.history moves))
      ((deployment.world moves).item collection tokenId).tokenURI tokenURI := by
  refine (deployment.mint_invariant moves collection
    (fun history w => (∃ receipt ∈ history, lists collection tokenId receipt.event = true) →
      ∃ tokenURI, ShownURI tokenId (openMints deployment.address collection history)
        (completedMints deployment.address collection history)
        (mintsAtListing deployment.address collection tokenId history)
        (w.item collection tokenId).tokenURI tokenURI) ?_ ?_).2 listed
  · rintro ⟨_, impossible, _⟩
    cases impossible
  · intro event history w after change registry tracked booked inductionHypothesis listed
    rcases change.shown deployment.address_ne_zero registry collection tokenId with
      ⟨here, unissued, s, found, existing, copied⟩ | ⟨elsewhere, kept⟩
    · simp only [mintsAtListing, here, if_true, copied]
      have accounted := tracked.accounted s.issue (issues_eq found)
      rw [mintPhase, unissued] at booked
      generalize openMints deployment.address collection (⟨w, event⟩ :: history) = mints at booked ⊢
      generalize completedMints deployment.address collection (⟨w, event⟩ :: history) = completed
        at booked ⊢
      cases booked
      exact accounted.shown (decide_eq_true existing)
    · obtain ⟨receipt, member, before⟩ := listed
      have earlier : receipt ∈ history := by
        rcases List.mem_cons.mp member with rfl | earlier
        · exact absurd (before.symm.trans elsewhere) (by decide)
        · exact earlier
      obtain ⟨tokenURI, shown⟩ := inductionHypothesis ⟨receipt, earlier, before⟩
      simp only [mintsAtListing, elsewhere, Bool.false_eq_true, if_false, kept]
      exact ⟨tokenURI, { shown with created := booked.kept shown.created }⟩

/-- Once no mint is in progress, an item that was ever listed shows the URI of its token exactly
if its latest listing was not made within the token's own mint call, or that call gave the token
the empty URI. `mint` calls its recipient back before it stores the URI, so a listing from within
reads the empty string, and nothing ever writes it again. -/
theorem metadata_shown_exact
    (listed : ∃ receipt ∈ deployment.history moves, lists collection tokenId receipt.event = true)
    (minted : deployment.Minted moves collection) :
    (∃ s, (deployment.world moves).deployed collection = some s ∧
        s.tokenURI tokenId = .ok ((deployment.world moves).item collection tokenId).tokenURI) ↔
      ∀ tokenURI, (tokenId, tokenURI) ∈
        mintsAtListing deployment.address collection tokenId (deployment.history moves) →
          tokenURI = [] := by
  obtain ⟨tokenURI, shown⟩ := deployment.shown_uri moves collection tokenId listed
  have created := shown.created
  rw [deployment.openMints_eq_nil moves collection minted, List.nil_append] at created
  cases found : (deployment.world moves).deployed collection with
  | none =>
    have absent := (deployment.mintsTracked moves collection).absent
      (by simp [World.catalogue, found])
    rw [absent.2] at created
    cases created
  | some s =>
    have stored := ((deployment.accounted moves found).stored created).2
    simp only [Option.some.injEq, exists_eq_left', stored, Except.ok.injEq]
    constructor
    · intro same other here
      obtain rfl := shown.unique other here
      exact same.trans (shown.early here)
    · intro blank
      by_cases here : (tokenId, tokenURI) ∈
          mintsAtListing deployment.address collection tokenId (deployment.history moves)
      · rw [shown.early here, blank tokenURI here]
      · exact (shown.late here).symm

/-- The URI of a token that its owner minted and listed is shown with the listing. The listing
came after the mint, so it read what the mint had stored. -/
theorem sampleListing_shown :
    ∃ s, (sample.world sampleListing).deployed 100 = some s ∧
      s.tokenURI 1 = .ok ((sample.world sampleListing).item 100 1).tokenURI := by
  have listed : ∃ receipt ∈ sample.history sampleListing,
      lists 100 1 receipt.event = true := by decide +kernel
  have returned : (sample.run sampleListing).current.pending = [] := by decide +kernel
  have minted : sample.Minted sampleListing 100 :=
    sample.minted_of_returned sampleListing 100 returned
  apply (metadata_shown_exact sample sampleListing 100 1 listed minted).mpr
  have nested : mintsAtListing sample.address 100 1 (sample.history sampleListing) = [] := by
    decide +kernel
  simp [nested]

/-- Account 11 is a contract; called back by its own mint, it lists the new token. The listing is
made before the mint goes on. -/
def listedInMint : List (Move Action) :=
  [.act (.setAccount 11 ⟨true, true⟩),
    .act (.marketplace ⟨11, 0⟩ (.createCollection (bytes "Apes") (bytes "APE") [] (bytes "Art") 100)),
    .act (.collection 11 100 (.mint 11 (bytes "ipfs://ape"))),
    .act (.collection 11 100 (.approve 1 1)),
    .act (.marketplace ⟨11, NFTMarketplace.initialListingFee⟩ (.createMarketItem 100 1 1000)),
    .finish]

/-- The listing shows no URI, and keeps showing none. A contract minted a token to itself and
listed it when it was called back. -/
theorem listing_without_uri :
    (sample.run listedInMint).current.pending = [] ∧
      ((sample.world listedInMint).item 100 1).isOnSale = true ∧
      ((sample.world listedInMint).item 100 1).tokenURI = [] ∧
      ((sample.world listedInMint).deployed 100).map (NFTCollection.tokenURI 1) =
        some (.ok (bytes "ipfs://ape")) := by
  refine ⟨by decide +kernel, by decide +kernel, by decide +kernel, by rfl⟩

end Deployment

end OpenBeach
