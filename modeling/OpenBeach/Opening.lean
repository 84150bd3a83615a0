import OpenBeach.Indexes
import OpenBeach.Minting
import OpenBeach.Resale

/-!
# A collection can always be opened

Whatever happened before, anybody can create a collection in a category that the marketplace
offers, and who owns a collection can mint in it until its numbers are used up. Neither
calls in progress nor unfinished mints of the same collection stand in the way.
-/

namespace OpenBeach

open Function Mappings NestedCalls

/-- What a mint leaves: the next token is the recipient's, the marketplace's record has its number
as the supply, and no other token changes hands. -/
structure TokenMinted (collection recipient : Address) (tokenURI : Bytes) (tokenId : UInt256)
    (w after : World) : Prop where
  holder : after.ownerOf collection tokenId = recipient
  storage : ∃ s, after.deployed collection = some s ∧ s.totalSupply = tokenId ∧
    s.tokenURI tokenId = .ok tokenURI
  record : (after.marketplace.collections collection).totalSupply = tokenId
  owners : ∀ otherCollection otherId, ¬ (otherCollection = collection ∧ otherId = tokenId) →
    after.ownerOf otherCollection otherId = w.ownerOf otherCollection otherId
  balance : after.balance = w.balance

namespace Deployment

variable (deployment : Deployment) (moves : List (Move Action))

/-- The moves, and then a mint. The collection is deployed already, and its owner sends the call. -/
def minting (owner collection recipient : Address) (tokenURI : Bytes) : List (Move Action) :=
  moves ++ [.act (.collection owner collection (.mint recipient tokenURI))]

/-- The storage of a collection after a mint. Number, owner and URI of the token are written, and
the other tokens stay. -/
def mintedStorage (s : NFTCollection) (recipient : Address) (tokenURI : Bytes) (tokenId : UInt256) :
    NFTCollection :=
  ({ s with tokenIds := tokenId }.reassign tokenId recipient).setTokenURI tokenId tokenURI

/-- What a mint leaves of the world. The registry copies the new supply, and the marketplace holds
nothing more. -/
def mintedWorld (w : World) (collection recipient : Address) (tokenURI : Bytes)
    (s : NFTCollection) (tokenId : UInt256) : World :=
  { w.setCollection collection (mintedStorage s recipient tokenURI tokenId) with
    marketplace := { w.marketplace with
      collections := update w.marketplace.collections collection
        { w.marketplace.collections collection with totalSupply := tokenId } } }

section Mint

variable {moves} {collection recipient : Address} {tokenURI : Bytes} {s : NFTCollection}
  {tokenId : UInt256}

/-- A mint by the owner runs to its end if the recipient is no contract. A contract would be
called back in between, and the call would wait for it. -/
theorem mint_executes (found : (deployment.world moves).deployed collection = some s)
    (owner : (deployment.world moves).isOutside deployment.address s.owner = true)
    (outside : (deployment.world moves).isOutside deployment.address recipient = true)
    (plain : ((deployment.world moves).accounts recipient).hasCode = false)
    (next : tokenId.toNat = s.totalSupply.toNat + 1) :
    execute deployment.address (.collection s.owner collection (.mint recipient tokenURI))
        (deployment.world moves) =
      .ok (mintedWorld (deployment.world moves) collection recipient tokenURI s tokenId, none) := by
  have registry := deployment.registry moves
  obtain ⟨nonzero, other, absent⟩ := outside_iff.mp outside
  have unused : s.owners tokenId = 0 := by
    by_contra present
    have numbered := (deployment.accounted moves found).numbered tokenId
    rw [Accounted.existing_iff] at numbered
    have bound := (numbered.mp present).2
    have supply : s.issue.supply = s.totalSupply := rfl
    rw [supply] at bound
    omega
  have begun : s.beginMint s.owner recipient =
      .ok (tokenId, { s with tokenIds := tokenId }.reassign tokenId recipient) :=
    NFTCollection.beginMint_ok.mpr ⟨rfl, next, nonzero, unused, rfl⟩
  have active : ((deployment.world moves).marketplace.collections collection).isActive = true := by
    rw [registry.active, found]
    rfl
  have apart : recipient ≠ collection := by
    rintro rfl
    rw [found] at absent
    cases absent
  simp only [execute, bind_ok, ensure_ok, exists_const]
  refine ⟨owner, ?_⟩
  simp only [NFTCollection.call, mint, found, bind_ok, Prod.exists]
  refine ⟨tokenId, _, begun, checkOnERC721Received_ok.mpr ⟨?_, .inr ⟨plain, ?_, rfl⟩⟩⟩
  · exact outside_iff.mpr ⟨nonzero, other, (update_of_ne apart _ _).trans absent⟩
  · refine resume_mint_ok.mpr ⟨_, update_self _ _ _, registry.reports collection s found, ?_⟩
    refine NFTMarketplace.updateCollectionTotalSupply_ok.mpr
      ⟨active, rfl, _, update_self _ _ _, ?_⟩
    simp only [World.setCollection, update_idem]
    rfl

/-- Only such mints run to their ends without a callback: the caller owns the collection, the
recipient is no contract, and a number is left. Together with `mint_executes` this says when a
mint succeeds in one step, and what it leaves. -/
theorem mint_executed {sender : Address} {after : World}
    (ran : execute deployment.address (.collection sender collection (.mint recipient tokenURI))
      (deployment.world moves) = .ok (after, none)) :
    ∃ s tokenId, (deployment.world moves).deployed collection = some s ∧ s.owner = sender ∧
      (deployment.world moves).isOutside deployment.address s.owner = true ∧
      (deployment.world moves).isOutside deployment.address recipient = true ∧
      ((deployment.world moves).accounts recipient).hasCode = false ∧
      tokenId.toNat = s.totalSupply.toNat + 1 ∧
      after = mintedWorld (deployment.world moves) collection recipient tokenURI s tokenId := by
  have executed := ran
  simp only [execute, bind_ok, ensure_ok, exists_const, NFTCollection.call, mint] at executed
  obtain ⟨owner, executed⟩ := executed
  split at executed
  · cases executed
  · next s found =>
    simp only [bind_ok, Prod.exists] at executed
    obtain ⟨tokenId, minted, begun, received⟩ := executed
    obtain ⟨rfl, next, _⟩ := NFTCollection.beginMint_ok.mp begun
    obtain ⟨outside, ⟨_, _, impossible⟩ | ⟨plain, _⟩⟩ := checkOnERC721Received_ok.mp received
    · cases impossible
    · obtain ⟨nonzero, other, absent⟩ := outside_iff.mp outside
      have apart : recipient ≠ collection := by
        rintro rfl
        simp [World.setCollection] at absent
      have before : (deployment.world moves).isOutside deployment.address recipient = true :=
        outside_iff.mpr ⟨nonzero, other, (update_of_ne apart _ _).symm.trans absent⟩
      have whole := @mint_executes deployment moves collection recipient tokenURI s tokenId found owner before plain next
      rw [whole] at ran
      exact ⟨s, tokenId, found, rfl, owner, before, plain, next,
        (Prod.mk.inj (Except.ok.inj ran)).1.symm⟩

/-- The same as a move of a run: after it, the world is the one that the mint leaves. -/
theorem mint_runs (found : (deployment.world moves).deployed collection = some s)
    (owner : (deployment.world moves).isOutside deployment.address s.owner = true)
    (outside : (deployment.world moves).isOutside deployment.address recipient = true)
    (plain : ((deployment.world moves).accounts recipient).hasCode = false)
    (next : tokenId.toNat = s.totalSupply.toNat + 1) :
    deployment.world (minting moves s.owner collection recipient tokenURI) =
      mintedWorld (deployment.world moves) collection recipient tokenURI s tokenId :=
  deployment.world_act moves rfl (mint_executes deployment found owner outside plain next)

end Mint

/-- From every state a run reaches, the owner of a collection can mint for any account that is no
contract, unless all numbers are used up. Mints that are still in progress do not stand in the
way: the next number is free even then. -/
theorem token_can_be_minted (collection recipient : Address) (tokenURI : Bytes) (s : NFTCollection)
    (found : (deployment.world moves).deployed collection = some s)
    (owner : (deployment.world moves).isOutside deployment.address s.owner = true)
    (outside : (deployment.world moves).isOutside deployment.address recipient = true)
    (plain : ((deployment.world moves).accounts recipient).hasCode = false)
    (room : s.totalSupply.toNat + 1 < 2 ^ 256) :
    ∃ tokenId : UInt256, tokenId.toNat = s.totalSupply.toNat + 1 ∧
      TokenMinted collection recipient tokenURI tokenId (deployment.world moves)
        (deployment.world (minting moves s.owner collection recipient tokenURI)) := by
  obtain ⟨nonzero, _, _⟩ := outside_iff.mp outside
  have ran := @mint_runs deployment moves collection recipient tokenURI s ⟨_, room⟩ found owner
    outside plain rfl
  refine ⟨⟨_, room⟩, rfl, ?_⟩
  rw [ran, mintedWorld]
  refine ⟨?_, ⟨_, update_self _ _ _, rfl, ?_⟩, ?_, ?_, rfl⟩
  · simp [World.ownerOf, ownerIn, World.setCollection, mintedStorage, NFTCollection.setTokenURI,
      NFTCollection.reassign]
  · simp [NFTCollection.tokenURI, NFTCollection.requireOwned, mintedStorage,
      NFTCollection.setTokenURI, NFTCollection.reassign, NFTCollection.baseURIHook, nonzero]
  · simp
  · intro otherCollection otherId apart
    by_cases same : otherCollection = collection
    · subst same
      have different : otherId ≠ ⟨_, room⟩ := fun here => apart ⟨rfl, here⟩
      simp [World.ownerOf, ownerIn, World.setCollection, mintedStorage, NFTCollection.setTokenURI,
        NFTCollection.reassign, found, different]
    · simp [World.ownerOf, ownerIn, World.setCollection, same]

/-- Account 11 mints a second token, for 12. The first one is on sale meanwhile. Its collection is
the one that the listing before it belongs to. -/
theorem token_can_be_minted_sample : ∃ s tokenId,
    (sample.world sampleListing).deployed 100 = some s ∧ tokenId.toNat = 2 ∧
      TokenMinted 100 12 (bytes "ipfs://ape2") tokenId (sample.world sampleListing)
        (sample.world (minting sampleListing s.owner 100 12 (bytes "ipfs://ape2"))) := by
  have known : ((sample.world sampleListing).deployed 100).map
      (fun s => (s.owner, s.totalSupply.toNat)) = some (11, 1) := by
    decide +kernel
  obtain ⟨s, found, facts⟩ := Option.map_eq_some_iff.mp known
  obtain ⟨owner, supply⟩ := Prod.mk.inj facts
  obtain ⟨tokenId, next, minted⟩ := token_can_be_minted sample sampleListing 100 12
    (bytes "ipfs://ape2") s found (by rw [owner]; decide +kernel) (by decide +kernel)
    (by decide +kernel) (by rw [supply]; decide)
  exact ⟨s, tokenId, found, by rw [next, supply], minted⟩

/-- The storage of a new collection. There is no token, no approval and no supply, and the creator
owns the contract. -/
def createdStorage (this creator : Address) (name symbol baseURI category : Bytes) :
    NFTCollection where
  name := name
  symbol := symbol
  owners := fun _ => 0
  tokenApprovals := fun _ => 0
  operatorApprovals := fun _ _ => false
  tokenURIs := fun _ => []
  owner := creator
  tokenIds := 0
  baseURI := baseURI
  marketplaceAddress := this
  category := category

/-- A collection is created in any category that is offered. Its contract is deployed, its record
is stored, and it is entered in both indexes. -/
theorem creation_runs {creator newCollection : Address} {name symbol baseURI category : Bytes}
    (outside : (deployment.world moves).isOutside deployment.address creator = true)
    (fresh : (deployment.world moves).isOutside deployment.address newCollection = true)
    (offered : category ∈ (deployment.world moves).marketplace.getCategories) :
    deployment.world (moves ++ [.act (.marketplace ⟨creator, 0⟩
        (.createCollection name symbol baseURI category newCollection))]) =
      { (deployment.world moves).setCollection newCollection
          (createdStorage deployment.address creator name symbol baseURI category) with
        marketplace := (deployment.world moves).marketplace.registering creator
          (NFTMarketplace.newRecord creator name symbol baseURI category newCollection
            (deployment.world moves).timestamp) } := by
  obtain ⟨nonzero, _, _⟩ := outside_iff.mp outside
  have open_ : (deployment.world moves).marketplace.categoryExists category = true :=
    ((deployment.indexed moves).known category).mpr offered
  refine deployment.world_act moves rfl (execute_marketplace_ok.mpr ⟨outside, ?_, rfl⟩)
  refine NFTMarketplace.nonPayable_ok.mpr ⟨rfl, NFTMarketplace.createCollection_ok.mpr
    ⟨open_, fresh, _, NFTCollection.constructor_ok.mpr ⟨nonzero, rfl⟩, rfl⟩⟩

/-- The moves, and then a new collection with a first token for its creator. They are two calls of
the same account, one of the marketplace and one of the collection. -/
def opening (creator newCollection : Address) (name symbol baseURI category tokenURI : Bytes) :
    List (Move Action) :=
  minting (moves ++ [.act (.marketplace ⟨creator, 0⟩
    (.createCollection name symbol baseURI category newCollection))])
    creator newCollection creator tokenURI

/-- What an opening leaves: the collection and its record are what the call said, it is listed
last and in its category and for its creator, and the creator has its first token. -/
structure Opened (this creator newCollection : Address)
    (name symbol baseURI category tokenURI : Bytes) (w after : World) : Prop where
  collection : ∃ s, after.deployed newCollection = some s ∧ s.name = name ∧ s.symbol = symbol ∧
    s.baseURI = baseURI ∧ s.category = category ∧ s.marketplaceAddress = this ∧
    s.owner = creator ∧ s.totalSupply = 1 ∧ s.tokenURI 1 = .ok tokenURI
  record : after.marketplace.collections newCollection =
    { NFTMarketplace.newRecord creator name symbol baseURI category newCollection w.timestamp with
      totalSupply := 1 }
  listed : after.marketplace.collectionAddresses =
    w.marketplace.collectionAddresses ++ [newCollection]
  inCategory : newCollection ∈ after.marketplace.categoryToCollections category
  created : newCollection ∈ after.marketplace.userCreatedCollections creator
  holder : after.ownerOf newCollection 1 = creator
  owners : ∀ collection tokenId, collection ≠ newCollection →
    after.ownerOf collection tokenId = w.ownerOf collection tokenId
  balance : after.balance = w.balance

/-- From every state a run reaches, any account that is no contract can open a collection in any
category that the marketplace offers, and mint in it. The new contract needs an address that
nobody uses, which the chain provides. -/
theorem collection_can_be_opened (creator newCollection : Address)
    (name symbol baseURI category tokenURI : Bytes)
    (outside : (deployment.world moves).isOutside deployment.address creator = true)
    (plain : ((deployment.world moves).accounts creator).hasCode = false)
    (fresh : (deployment.world moves).isOutside deployment.address newCollection = true)
    (apart : creator ≠ newCollection)
    (offered : category ∈ (deployment.world moves).marketplace.getCategories) :
    Opened deployment.address creator newCollection name symbol baseURI category tokenURI
      (deployment.world moves) (deployment.world
        (opening moves creator newCollection name symbol baseURI category tokenURI)) := by
  obtain ⟨nonzero, other, absent⟩ := outside_iff.mp outside
  have created := @creation_runs deployment moves creator newCollection name symbol baseURI category
    outside fresh offered
  rw [opening]
  generalize given : moves ++ [.act (.marketplace ⟨creator, 0⟩
    (.createCollection name symbol baseURI category newCollection))] = first at created
  have still : (deployment.world first).isOutside deployment.address creator = true := by
    rw [created]
    exact outside_iff.mpr ⟨nonzero, other, (update_of_ne apart _ _).trans absent⟩
  have found : (deployment.world first).deployed newCollection =
      some (createdStorage deployment.address creator name symbol baseURI category) := by
    rw [created]
    exact update_self _ _ _
  have minted := @mint_runs deployment first newCollection creator tokenURI
    (createdStorage deployment.address creator name symbol baseURI category) 1 found still still
    (by rw [created]; exact plain) rfl
  have all : minting first
      (createdStorage deployment.address creator name symbol baseURI category).owner newCollection
      creator tokenURI = minting first creator newCollection creator tokenURI := rfl
  rw [← all, minted, mintedWorld, created]
  refine ⟨⟨_, update_self _ _ _, rfl, rfl, rfl, rfl, rfl, rfl, rfl, ?_⟩, ?_, rfl, ?_, ?_, ?_, ?_, rfl⟩
  · simp [NFTCollection.tokenURI, NFTCollection.requireOwned, mintedStorage, createdStorage,
      NFTCollection.setTokenURI, NFTCollection.reassign, NFTCollection.baseURIHook, nonzero]
  · simp [NFTMarketplace.registering, NFTMarketplace.newRecord]
  · simp [NFTMarketplace.registering, NFTMarketplace.newRecord]
  · simp [NFTMarketplace.registering, NFTMarketplace.newRecord]
  · simp [World.ownerOf, ownerIn, World.setCollection, mintedStorage, createdStorage,
      NFTCollection.setTokenURI, NFTCollection.reassign]
  · intro collection tokenId different
    simp [World.ownerOf, ownerIn, World.setCollection, different]

/-- Account 12 opens a collection after 11 listed a token of another. The registry then lists both
collections, in this order. -/
theorem collection_can_be_opened_sample :
    (sample.world (opening sampleListing 12 200 (bytes "Cats") (bytes "CAT") [] (bytes "Art")
        (bytes "ipfs://cat"))).ownerOf 200 1 = 12 ∧
      (sample.world (opening sampleListing 12 200 (bytes "Cats") (bytes "CAT") [] (bytes "Art")
        (bytes "ipfs://cat"))).marketplace.collectionAddresses = [100, 200] := by
  have opened := collection_can_be_opened sample sampleListing 12 200 (bytes "Cats") (bytes "CAT") []
    (bytes "Art") (bytes "ipfs://cat") (by decide +kernel) (by decide +kernel) (by decide +kernel)
    (by decide) (by decide +kernel)
  refine ⟨opened.holder, ?_⟩
  rw [opened.listed]
  decide +kernel

end Deployment

end OpenBeach
