import OpenBeach.Issues
import OpenBeach.Registry

/-!
# The catalogue of collections

The catalogue is what the two contracts store about collections as such: the
marketplace's categories, records and indexes, and what each collection says of
itself, its owner and the tokens it issued. Trades leave it alone. What an event does
to it is one of six steps, which depend on the catalogue alone.
-/

namespace OpenBeach

open Function Mappings NestedCalls

/-- What there is to find: the categories, the records, the indexes that lead to them, and what
each deployed collection says of itself. Listings, bids and balances are no part of it. -/
structure Catalogue where
  categories : List Bytes
  categoryExists : Bytes → Bool
  collections : Address → Collection
  collectionAddresses : List Address
  categoryToCollections : Bytes → List Address
  userCreatedCollections : Address → List Address
  issues : Address → Option Issue

/-- The catalogue that is in the storage of the contracts. It is read off both contracts, so that
one invariant can relate them. -/
def World.catalogue (w : World) : Catalogue where
  categories := w.marketplace.categories
  categoryExists := w.marketplace.categoryExists
  collections := w.marketplace.collections
  collectionAddresses := w.marketplace.collectionAddresses
  categoryToCollections := w.marketplace.categoryToCollections
  userCreatedCollections := w.marketplace.userCreatedCollections
  issues collection := (w.deployed collection).map NFTCollection.issue

/-- Replace what a collection says of itself. Everything that the marketplace has of the
collection stays. -/
def Catalogue.setIssue (catalogue : Catalogue) (collection : Address) (issue : Issue) :
    Catalogue :=
  { catalogue with issues := update catalogue.issues collection (some issue) }

/-- A collection reports its supply to the marketplace. The other fields of the record stay. -/
def Catalogue.report (catalogue : Catalogue) (collection : Address) (supply : UInt256) :
    Catalogue :=
  { catalogue with
    collections := update catalogue.collections collection
      { catalogue.collections collection with totalSupply := supply } }

/-- What a step of a collection leaves of the catalogue. A mint that is done reports the
supply. -/
def Catalogue.issued (catalogue : Catalogue) (collection : Address) (event : IssueEvent)
    (issue : Issue) : Catalogue :=
  match event with
  | .minting (.finished _) | .minting (.whole _) =>
    (catalogue.setIssue collection issue).report collection issue.supply
  | .minting (.begun _) | .handed _ => catalogue.setIssue collection issue

/-- An event on the catalogue. The calls that are about categories, collections and what they
issue. -/
inductive CatalogueEvent where
  | category (category : Bytes) : CatalogueEvent
  | created (creator newCollection : Address) : CatalogueEvent
  | issued (collection : Address) (event : IssueEvent) : CatalogueEvent
deriving DecidableEq

/-- The step of a given collection that the event is. Steps of other collections are none of it. -/
def CatalogueEvent.issue (collection : Address) : CatalogueEvent → Option IssueEvent
  | .issued given event => if given = collection then some event else none
  | _ => none

/-- The identifier that a mint call gives its token, and the URI it was called with. The
identifier is read off the storage that the call found. -/
def mintCall (collection : Address) (receipt : ChainReceipt) : Option (UInt256 × Bytes) :=
  match receipt.event with
  | .executed (.collection sender target (.mint recipient tokenURI)) =>
    if target = collection then
      match receipt.before.deployed collection with
      | none => none
      | some s => (s.beginMint sender recipient).toOption.map fun begun => (begun.1, tokenURI)
    else none
  | _ => none

/-- What an event does to the catalogue, if anything. Trades, payments, approvals and transfers do
nothing to it. -/
def catalogueEvent (receipt : ChainReceipt) : Option CatalogueEvent :=
  match receipt.event with
  | .executed (.marketplace _ (.addCategory category)) => some (.category category)
  | .executed (.marketplace msg (.createCollection _ _ _ _ newCollection)) =>
    some (.created msg.sender newCollection)
  | .executed (.collection _ collection (.mint recipient _)) =>
    (mintCall collection receipt).map fun mint =>
      .issued collection (.minting
        (if (receipt.before.accounts recipient).hasCode = true then .begun mint else .whole mint))
  | .executed (.collection _ collection (.transferOwnership newOwner)) =>
    some (.issued collection (.handed newOwner))
  | .executed (.collection _ collection .renounceOwnership) =>
    some (.issued collection (.handed 0))
  | .resumed (.mint collection tokenId tokenURI) =>
    some (.issued collection (.minting (.finished (tokenId, tokenURI))))
  | _ => none

/-- The steps of the catalogue, with the facts their calls checked. Invariants of the catalogue
are proved by cases on them. -/
inductive CatalogueStep (catalogue : Catalogue) : Option CatalogueEvent → Catalogue → Prop where
  | idle : CatalogueStep catalogue none catalogue
  | category (category : Bytes) (unknown : catalogue.categoryExists category = false) :
      CatalogueStep catalogue (some (.category category))
        { catalogue with
          categories := catalogue.categories ++ [category]
          categoryExists := update catalogue.categoryExists category true }
  | created (creator newCollection : Address) (name symbol baseURI category : Bytes)
      (createdAt : UInt256) (known : catalogue.categoryExists category = true)
      (absent : catalogue.issues newCollection = none) :
      CatalogueStep catalogue (some (.created creator newCollection))
        { catalogue with
          collections := update catalogue.collections newCollection
            (NFTMarketplace.newRecord creator name symbol baseURI category newCollection createdAt)
          collectionAddresses := catalogue.collectionAddresses ++ [newCollection]
          categoryToCollections := update catalogue.categoryToCollections category
            (catalogue.categoryToCollections category ++ [newCollection])
          userCreatedCollections := update catalogue.userCreatedCollections creator
            (catalogue.userCreatedCollections creator ++ [newCollection])
          issues := update catalogue.issues newCollection
            (some ⟨creator, 0, fun _ => false, fun _ => []⟩) }
  | issued (collection : Address) (event : IssueEvent) (issue after : Issue)
      (found : catalogue.issues collection = some issue)
      (step : IssueStep issue (some event) after) :
      CatalogueStep catalogue (some (.issued collection event))
        (catalogue.issued collection event after)

section Projection

variable {this : Address} {w after : World}

/-- The catalogue lists what collections say of themselves. An address without a collection says
nothing. -/
theorem issues_eq {collection : Address} {s : NFTCollection}
    (found : w.deployed collection = some s) :
    w.catalogue.issues collection = some s.issue := by
  simp [World.catalogue, found]

/-- Rewriting the storage of a collection replaces what it says. All others say what they said
before. -/
theorem issues_update (deployed : Address → Option NFTCollection) (collection : Address)
    (result : NFTCollection) :
    (fun tested => (update deployed collection (some result) tested).map NFTCollection.issue) =
      update (fun tested => (deployed tested).map NFTCollection.issue) collection
        (some result.issue) := by
  funext tested
  by_cases same : tested = collection
  · subst same
    simp
  · simp [same]

/-- Rewriting it with the same issue replaces nothing. Such are approvals and transfers. -/
theorem issues_same {collection : Address} {s result : NFTCollection}
    (found : w.deployed collection = some s) (same : result.issue = s.issue) :
    (fun tested => (update w.deployed collection (some result) tested).map NFTCollection.issue) =
      fun tested => (w.deployed tested).map NFTCollection.issue := by
  rw [issues_update, same]
  apply update_eq_self_iff.mpr
  simp [found]

/-- A quiet event that leaves the catalogue as it is makes an idle step. Most events are so. -/
theorem CatalogueStep.of_same {event : ChainEvent} (quiet : catalogueEvent ⟨w, event⟩ = none)
    (same : after.catalogue = w.catalogue) :
    CatalogueStep w.catalogue (catalogueEvent ⟨w, event⟩) after.catalogue := by
  rw [quiet, same]
  exact .idle

/-- A transfer inside a marketplace call leaves the issues alone. Who holds a token is not among
the things that a collection says of itself. -/
theorem issues_transfer {collection sender source target : Address} {tokenId : UInt256}
    {s result : NFTCollection} (found : w.deployed collection = some s) (nonzero : source ≠ 0)
    (moved : NFTCollection.transferFrom sender source target tokenId s = .ok result) :
    (fun tested => (update w.deployed collection (some result) tested).map NFTCollection.issue) =
      fun tested => (w.deployed tested).map NFTCollection.issue :=
  issues_same found (NFTCollection.transferFrom_issue nonzero moved)

/-- Calls to the marketplace. Outside accounts cannot report a supply. Each function makes a step
of its kind, or none. -/
theorem marketplace_catalogue {msg : Msg} {call : NFTMarketplace.Call} (nonzero : this ≠ 0)
    (outside : w.isOutside this msg.sender = true)
    (completed : NFTMarketplace.call this msg call w = .ok after) :
    CatalogueStep w.catalogue (catalogueEvent ⟨w, .executed (.marketplace msg call)⟩)
      after.catalogue := by
  obtain ⟨sender_nonzero, _, absent⟩ := outside_iff.mp outside
  cases call with
  | addCategory category =>
    obtain ⟨_, completed⟩ := NFTMarketplace.nonPayable_ok.mp completed
    obtain ⟨s, added, rfl⟩ := NFTMarketplace.onStorage_ok.mp completed
    obtain ⟨_, unknown, rfl⟩ := NFTMarketplace.addCategory_ok.mp added
    exact .category category unknown
  | createCollection name symbol baseURI category newCollection =>
    obtain ⟨_, completed⟩ := NFTMarketplace.nonPayable_ok.mp completed
    obtain ⟨known, fresh, storage, created, rfl⟩ :=
      NFTMarketplace.createCollection_ok.mp completed
    obtain ⟨_, rfl⟩ := NFTCollection.constructor_ok.mp created
    have unused : w.catalogue.issues newCollection = none := by
      simp [World.catalogue, (outside_iff.mp fresh).2.2]
    convert CatalogueStep.created msg.sender newCollection name symbol baseURI category w.timestamp
      known unused using 1
    · rfl
    · simp only [World.catalogue, World.setCollection, issues_update, NFTMarketplace.registering,
        NFTMarketplace.newRecord]
      simp [NFTCollection.issue]
  | createMarketItem collection tokenId price =>
    obtain ⟨_, completed⟩ := NFTMarketplace.payable_ok.mp completed
    obtain ⟨_, _, _, _, s, result, found, _, moved, rfl⟩ :=
      NFTMarketplace.createMarketItem_ok.mp completed
    apply CatalogueStep.of_same rfl
    simp only [World.catalogue, NFTMarketplace.listing]
    rw [issues_transfer (w := w) found sender_nonzero moved]
  | createMarketSale collection tokenId =>
    obtain ⟨_, completed⟩ := NFTMarketplace.payable_ok.mp completed
    obtain ⟨_, _, _, _, _, _, s, result, count, found, moved, _, rfl⟩ :=
      NFTMarketplace.createMarketSale_ok.mp completed
    apply CatalogueStep.of_same rfl
    simp only [World.catalogue, NFTMarketplace.selling]
    rw [issues_transfer (w := w) found nonzero moved]
  | createAuction collection tokenId startingPrice duration =>
    obtain ⟨_, completed⟩ := NFTMarketplace.nonPayable_ok.mp completed
    obtain ⟨_, _, _, _, _, rfl⟩ := NFTMarketplace.createAuction_ok.mp completed
    exact .of_same rfl rfl
  | placeBid collection tokenId =>
    obtain ⟨_, completed⟩ := NFTMarketplace.payable_ok.mp completed
    obtain ⟨_, _, _, _, _, _, rfl⟩ := NFTMarketplace.placeBid_ok.mp completed
    exact .of_same rfl rfl
  | makeOffer collection tokenId =>
    obtain ⟨_, completed⟩ := NFTMarketplace.payable_ok.mp completed
    obtain ⟨_, _, _, _, rfl⟩ := NFTMarketplace.makeOffer_ok.mp completed
    exact .of_same rfl rfl
  | updateCollectionTotalSupply collection =>
    obtain ⟨_, completed⟩ := NFTMarketplace.nonPayable_ok.mp completed
    obtain ⟨_, rfl, s, found, _⟩ := NFTMarketplace.updateCollectionTotalSupply_ok.mp completed
    exact absurd (absent.symm.trans found) (by simp)
  | transferOwnership newOwner =>
    obtain ⟨_, completed⟩ := NFTMarketplace.nonPayable_ok.mp completed
    obtain ⟨s, transferred, rfl⟩ := NFTMarketplace.onStorage_ok.mp completed
    obtain ⟨_, _, rfl⟩ := NFTMarketplace.transferOwnership_ok.mp transferred
    exact .of_same rfl rfl
  | renounceOwnership =>
    obtain ⟨_, completed⟩ := NFTMarketplace.nonPayable_ok.mp completed
    obtain ⟨s, renounced, rfl⟩ := NFTMarketplace.onStorage_ok.mp completed
    obtain ⟨_, rfl⟩ := NFTMarketplace.renounceOwnership_ok.mp renounced
    exact .of_same rfl rfl

/-- Replacing the storage of a collection changes one entry of the catalogue, what that collection
says of itself. -/
theorem setCollection_catalogue (collection : Address) (result : NFTCollection) :
    (w.setCollection collection result).catalogue = w.catalogue.setIssue collection result.issue := by
  simp only [World.catalogue, World.setCollection, Catalogue.setIssue, issues_update]

/-- A supply report after the collection rewrote its storage. It is recorded at once what the
collection now has. -/
theorem report_catalogue {sender collection : Address} {result : NFTCollection}
    (reported : NFTMarketplace.updateCollectionTotalSupply sender collection
      (w.setCollection collection result) = .ok after) :
    after.catalogue =
      (w.catalogue.setIssue collection result.issue).report collection result.tokenIds := by
  obtain ⟨_, _, s, found, rfl⟩ := NFTMarketplace.updateCollectionTotalSupply_ok.mp reported
  obtain rfl : result = s := by simpa [World.setCollection] using found
  simp only [World.catalogue, World.setCollection, Catalogue.setIssue, Catalogue.report,
    issues_update, NFTCollection.totalSupply]

/-- A mint call in progress or completed: which identifier it gave. The number is one above the
supply, whatever becomes of the call. -/
theorem mintCall_eq {sender collection recipient : Address} (tokenURI : Bytes)
    {newTokenId : UInt256} {s minted : NFTCollection} (found : w.deployed collection = some s)
    (begun : s.beginMint sender recipient = .ok (newTokenId, minted)) :
    mintCall collection
        ⟨w, .executed (.collection sender collection (.mint recipient tokenURI))⟩ =
      some (newTokenId, tokenURI) := by
  simp [mintCall, found, begun, Except.toOption]

/-- Minting, up to the recipient's callback or to its end. The two cases differ in whether the URI
is stored and the supply reported. -/
theorem mint_catalogue {sender collection recipient : Address} {tokenURI : Bytes}
    {continuation : Option Pending}
    (completed : mint this sender collection recipient tokenURI w = .ok (after, continuation)) :
    CatalogueStep w.catalogue
      (catalogueEvent ⟨w, .executed (.collection sender collection (.mint recipient tokenURI))⟩)
      after.catalogue := by
  obtain ⟨s, newTokenId, minted, found, begun, outcome⟩ := mint_cases completed
  obtain ⟨next, fresh, issue⟩ := NFTCollection.beginMint_issue begun
  have here := issues_eq found
  have call := mintCall_eq tokenURI found begun
  simp only [catalogueEvent, call, Option.map_some]
  rcases outcome with ⟨called, rfl, _⟩ | ⟨uncalled, reported, _⟩
  · rw [if_pos called, setCollection_catalogue, issue]
    exact .issued collection _ s.issue _ here (.begun newTokenId tokenURI next fresh)
  · have labelled : (minted.setTokenURI newTokenId tokenURI).issue =
        (s.issue.mint newTokenId).label newTokenId tokenURI := by
      rw [NFTCollection.setTokenURI_issue, issue]
    have supply : minted.tokenIds = newTokenId := congrArg Issue.supply issue
    rw [if_neg (by simp [uncalled]), report_catalogue reported, labelled]
    convert CatalogueStep.issued collection _ s.issue _ here
      (.whole newTokenId tokenURI next fresh) using 1
    exact congrArg _ supply

/-- A call that rewrites one collection and says what it said before. Such calls are idle steps. -/
theorem unissued_catalogue {collection : Address} {event : ChainEvent}
    {body : NFTCollection → Except Revert NFTCollection}
    (quiet : catalogueEvent ⟨w, event⟩ = none)
    (completed : w.callCollection collection body = .ok after)
    (same : ∀ s result, w.deployed collection = some s → body s = .ok result →
      result.issue = s.issue) :
    CatalogueStep w.catalogue (catalogueEvent ⟨w, event⟩) after.catalogue := by
  obtain ⟨s, result, found, ran, rfl⟩ := callCollection_ok.mp completed
  apply CatalogueStep.of_same quiet
  simp only [World.catalogue, World.setCollection]
  rw [issues_same (w := w) found (same s result found ran)]

/-- A call that changes the owner of a collection. The record of the marketplace does not follow. -/
theorem handed_catalogue {collection newOwner : Address} {event : ChainEvent}
    {body : NFTCollection → Except Revert NFTCollection}
    (handed : catalogueEvent ⟨w, event⟩ = some (.issued collection (.handed newOwner)))
    (completed : w.callCollection collection body = .ok after)
    (owner : ∀ s result, body s = .ok result → result = { s with owner := newOwner }) :
    CatalogueStep w.catalogue (catalogueEvent ⟨w, event⟩) after.catalogue := by
  obtain ⟨s, result, found, ran, rfl⟩ := callCollection_ok.mp completed
  obtain rfl := owner s result ran
  rw [handed, setCollection_catalogue]
  exact .issued collection (.handed newOwner) s.issue _ (issues_eq found) (.handed newOwner)

/-- Calls to a collection. Proof: by the function that is called. -/
theorem collection_catalogue {sender collection : Address} {call : NFTCollection.Call}
    {continuation : Option Pending} (registry : Registry this w)
    (outside : w.isOutside this sender = true)
    (ran : NFTCollection.call this sender collection call w = .ok (after, continuation)) :
    CatalogueStep w.catalogue (catalogueEvent ⟨w, .executed (.collection sender collection call)⟩)
      after.catalogue := by
  obtain ⟨sender_nonzero, other, _⟩ := outside_iff.mp outside
  cases call with
  | mint recipient tokenURI => exact mint_catalogue ran
  | approve target tokenId =>
    apply unissued_catalogue rfl (completed_ok.mp ran).1
    intro s result found approved
    obtain ⟨_, _, rfl⟩ := NFTCollection.approve_ok.mp approved
    rfl
  | setApprovalForAll operator approved =>
    apply unissued_catalogue rfl (completed_ok.mp ran).1
    intro s result found granted
    obtain ⟨_, rfl⟩ := NFTCollection.setApprovalForAll_ok.mp granted
    rfl
  | transferFrom source target tokenId =>
    apply unissued_catalogue rfl (completed_ok.mp ran).1
    intro s result found moved
    exact NFTCollection.outside_transfer_issue (registry.unapproved collection s found)
      sender_nonzero other moved
  | safeTransferFrom source target tokenId =>
    apply unissued_catalogue rfl (safeTransferFrom_moved ran)
    intro s result found moved
    exact NFTCollection.outside_transfer_issue (registry.unapproved collection s found)
      sender_nonzero other moved
  | transferOwnership newOwner =>
    apply handed_catalogue rfl (completed_ok.mp ran).1
    intro s result transferred
    exact (NFTCollection.transferOwnership_ok.mp transferred).2.2
  | renounceOwnership =>
    apply handed_catalogue rfl (completed_ok.mp ran).1
    intro s result renounced
    exact (NFTCollection.renounceOwnership_ok.mp renounced).2

/-- The projection: every effective event makes its step of the catalogue. It is put together from
the calls of both contracts and from resumed mints. -/
theorem effective_catalogue {event : ChainEvent} (nonzero : this ≠ 0) (registry : Registry this w)
    (effective : Effective (chain this) event w after) :
    CatalogueStep w.catalogue (catalogueEvent ⟨w, event⟩) after.catalogue := by
  cases event with
  | resumed pending =>
    cases pending with
    | mint collection newTokenId tokenURI =>
      obtain ⟨s, found, _, reported⟩ := resume_mint_ok.mp effective
      rw [report_catalogue reported]
      exact .issued collection (.minting (.finished (newTokenId, tokenURI))) s.issue _
        (issues_eq found) (.finished newTokenId tokenURI)
    | safeTransferFrom | outsideCall =>
      obtain rfl := Except.ok.inj effective
      exact .of_same rfl rfl
  | executed action =>
    obtain ⟨continuation, ran⟩ := effective
    cases action with
    | marketplace msg call =>
      obtain ⟨outside, completed, _⟩ := execute_marketplace_ok.mp ran
      exact marketplace_catalogue nonzero outside completed
    | collection sender collection call =>
      simp only [chain, execute, bind_ok, ensure_ok, exists_const] at ran
      exact collection_catalogue registry ran.1 ran.2
    | outsideCall =>
      obtain ⟨rfl, _⟩ : w = after ∧ some Pending.outsideCall = continuation := by
        simpa [chain, execute] using ran
      exact .of_same rfl rfl
    | moveEther source target amount =>
      simp only [chain, execute, bind_ok, ensure_ok, exists_const, completed_ok, moveEther_ok] at ran
      obtain ⟨_, ⟨_, rfl⟩, _⟩ := ran
      exact .of_same rfl rfl
    | setAccount address account =>
      obtain ⟨rfl, _⟩ : { w with accounts := update w.accounts address account } = after ∧
          none = continuation := by
        simpa [chain, execute] using ran
      exact .of_same rfl rfl
    | nextBlock timestamp =>
      simp only [chain, execute, bind_ok, ensure_ok, exists_const, pure_ok, Prod.mk.injEq] at ran
      obtain ⟨_, rfl, _⟩ := ran
      exact .of_same rfl rfl

end Projection

namespace Deployment

variable (deployment : Deployment) (moves : List (Move Action))

/-- The invariant rule for the catalogue over a run. Whatever every step keeps, from the empty
catalogue with the constructor's categories, holds in every reachable state. -/
theorem catalogue_invariant (P : List ChainReceipt → Catalogue → Prop)
    (base : P [] deployment.genesis.catalogue)
    (keeps : ∀ event history w after,
      CatalogueStep w.catalogue (catalogueEvent ⟨w, event⟩) after →
      P history w.catalogue → P (⟨w, event⟩ :: history) after) :
    P (deployment.history moves) (deployment.world moves).catalogue := by
  have both := (deployment.trace moves).history_invariant
    (fun history w => Registry deployment.address w ∧ P history w.catalogue)
    ⟨deployment.genesis_registry, base⟩
    (by
      rintro event history w after effective ⟨registry, holds⟩
      have step := effective_catalogue deployment.address_ne_zero registry effective
      exact ⟨(deployment.change effective).registry registry,
        keeps event history w after.catalogue step holds⟩)
  exact both.2

end Deployment

end OpenBeach
