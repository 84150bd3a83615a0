import OpenBeach.Collections
import OpenBeach.Indexes

/-!
# Who controls the contracts

Categories are added and tokens are minted by the owner of the respective contract, and the
owner alone hands it over. Who that is follows from the deployer or the creator and from the
calls since, so an owner that renounces leaves the contract without one for ever.
-/

namespace OpenBeach

open Function Mappings NestedCalls Sequences

/-- A call of the marketplace that only its owner may make. Zero stands for no owner. A
renouncement is a handover to it. -/
inductive GovernanceEvent where
  | categoryAdded (sender : Address) (category : Bytes) : GovernanceEvent
  | handed (sender newOwner : Address) : GovernanceEvent
deriving DecidableEq

namespace GovernanceEvent

/-- Who made the call. It is the account that the modifier checks. -/
def sender : GovernanceEvent → Address
  | .categoryAdded sender _ | .handed sender _ => sender

/-- The category that was added, if one was. Handovers add none. -/
def category : GovernanceEvent → Option Bytes
  | .categoryAdded _ category => some category
  | .handed _ _ => none

/-- The account the marketplace was handed to, if it was. Giving it up hands it to zero. -/
def newOwner : GovernanceEvent → Option Address
  | .categoryAdded _ _ => none
  | .handed _ newOwner => some newOwner

end GovernanceEvent

/-- The governing call that an event is, if it is one. Each case is an external function of the
marketplace that its modifier protects. -/
def governanceEvent (receipt : ChainReceipt) : Option GovernanceEvent :=
  match receipt.event with
  | .executed (.marketplace msg (.addCategory category)) => some (.categoryAdded msg.sender category)
  | .executed (.marketplace msg (.transferOwnership newOwner)) => some (.handed msg.sender newOwner)
  | .executed (.marketplace msg .renounceOwnership) => some (.handed msg.sender 0)
  | _ => none

/-- Who a contract belongs to and what it offers, for the marketplace. These two parts of the
storage are what its protected functions write. -/
structure Governance where
  owner : Address
  categories : List Bytes

/-- Who governs the marketplace, and what its categories are. Both are read off the storage of the
marketplace. -/
def World.governance (w : World) : Governance := ⟨w.marketplace.owner, w.marketplace.getCategories⟩

/-- What a governing call does. Every other call leaves owner and categories as they are. -/
inductive GovernanceStep (governance : Governance) : Option GovernanceEvent → Governance → Prop where
  | idle : GovernanceStep governance none governance
  | categoryAdded (sender : Address) (category : Bytes) (nonzero : sender ≠ 0)
      (owner : governance.owner = sender) :
      GovernanceStep governance (some (.categoryAdded sender category))
        { governance with categories := governance.categories ++ [category] }
  | handed (sender newOwner : Address) (nonzero : sender ≠ 0) (owner : governance.owner = sender) :
      GovernanceStep governance (some (.handed sender newOwner))
        { governance with owner := newOwner }

/-- The account the marketplace belongs to after some events. It is the deployer until the first
handover, and the last one decides afterwards. -/
def marketplaceOwner (deployer : Address) (history : List ChainReceipt) : Address :=
  (latest (fun receipt => (governanceEvent receipt).bind (·.newOwner)) history).getD deployer

/-- The categories added by some events, in their order. The categories the constructor puts there
are not among them. -/
def addedCategories (history : List ChainReceipt) : List Bytes :=
  chronicle (fun receipt => (governanceEvent receipt).bind (·.category)) history

/-- The account a collection belongs to after some events. It is the creator until the first
handover, and nobody if it was never created. -/
def collectionOwner (collection : Address) (history : List ChainReceipt) : Address :=
  (latestHandover collection history).getD ((creator collection history).getD 0)

/-- The account that a call of a collection needs to be its owner. Other calls are checked against
the token, not against the contract. -/
def StorageEvent.governor : StorageEvent → Option Address
  | .minted sender _ _ | .handed sender _ => some sender
  | _ => none

section Projection

variable {this : Address} {w after : World}

/-- An event that does not govern. It has to leave the governance as it was, which is the idle
step. -/
theorem GovernanceStep.of_same {event : ChainEvent} (quiet : governanceEvent ⟨w, event⟩ = none)
    (same : after.governance = w.governance) :
    GovernanceStep w.governance (governanceEvent ⟨w, event⟩) after.governance := by
  rw [quiet, same]
  exact .idle

/-- Calls of collections do not govern the marketplace. They write their own storage and, through
a mint, one supply in a record. -/
theorem CollectionsOnly.governance (only : CollectionsOnly w after) :
    after.governance = w.governance := by
  unfold CollectionsOnly at only
  rw [only]
  rfl

/-- Every call of the marketplace makes its step of the governance: those of its three governing
functions a step of their kind, and every other an idle one. -/
theorem marketplace_governance {msg : Msg} {call : NFTMarketplace.Call}
    (outside : w.isOutside this msg.sender = true)
    (completed : NFTMarketplace.call this msg call w = .ok after) :
    GovernanceStep w.governance (governanceEvent ⟨w, .executed (.marketplace msg call)⟩)
      after.governance := by
  obtain ⟨nonzero, _, _⟩ := outside_iff.mp outside
  cases call with
  | addCategory category =>
    obtain ⟨_, completed⟩ := NFTMarketplace.nonPayable_ok.mp completed
    obtain ⟨_, added, rfl⟩ := NFTMarketplace.onStorage_ok.mp completed
    obtain ⟨owner, _, rfl⟩ := NFTMarketplace.addCategory_ok.mp added
    exact .categoryAdded msg.sender category nonzero owner
  | transferOwnership newOwner =>
    obtain ⟨_, completed⟩ := NFTMarketplace.nonPayable_ok.mp completed
    obtain ⟨_, transferred, rfl⟩ := NFTMarketplace.onStorage_ok.mp completed
    obtain ⟨owner, _, rfl⟩ := NFTMarketplace.transferOwnership_ok.mp transferred
    exact .handed msg.sender newOwner nonzero owner
  | renounceOwnership =>
    obtain ⟨_, completed⟩ := NFTMarketplace.nonPayable_ok.mp completed
    obtain ⟨_, renounced, rfl⟩ := NFTMarketplace.onStorage_ok.mp completed
    obtain ⟨owner, rfl⟩ := NFTMarketplace.renounceOwnership_ok.mp renounced
    exact .handed msg.sender 0 nonzero owner
  | createCollection name symbol baseURI category newCollection =>
    obtain ⟨_, completed⟩ := NFTMarketplace.nonPayable_ok.mp completed
    obtain ⟨_, _, _, _, rfl⟩ := NFTMarketplace.createCollection_ok.mp completed
    exact .of_same rfl rfl
  | createMarketItem collection tokenId price =>
    obtain ⟨_, completed⟩ := NFTMarketplace.payable_ok.mp completed
    obtain ⟨_, _, _, _, _, _, _, _, _, rfl⟩ := NFTMarketplace.createMarketItem_ok.mp completed
    exact .of_same rfl rfl
  | createMarketSale collection tokenId =>
    obtain ⟨_, completed⟩ := NFTMarketplace.payable_ok.mp completed
    obtain ⟨_, _, _, _, _, _, _, _, _, _, _, _, rfl⟩ :=
      NFTMarketplace.createMarketSale_ok.mp completed
    exact .of_same rfl rfl
  | createAuction collection tokenId startingPrice duration =>
    obtain ⟨_, completed⟩ := NFTMarketplace.nonPayable_ok.mp completed
    obtain ⟨_, _, _, _, _, rfl⟩ := NFTMarketplace.createAuction_ok.mp completed
    exact .of_same rfl rfl
  | placeBid collection tokenId =>
    obtain ⟨_, completed⟩ := NFTMarketplace.payable_ok.mp completed
    obtain ⟨_, _, _, _, _, _, rfl⟩ := NFTMarketplace.placeBid_ok.mp completed
    exact .of_same rfl rfl
  | makeOffer collection tokenId =>
    obtain ⟨_, completed⟩ := NFTMarketplace.payable_ok.mp completed
    obtain ⟨_, _, _, _, rfl⟩ := NFTMarketplace.makeOffer_ok.mp completed
    exact .of_same rfl rfl
  | updateCollectionTotalSupply collection =>
    obtain ⟨_, completed⟩ := NFTMarketplace.nonPayable_ok.mp completed
    obtain ⟨_, _, _, _, rfl⟩ := NFTMarketplace.updateCollectionTotalSupply_ok.mp completed
    exact .of_same rfl rfl

/-- The projection: every effective event makes its step of the governance. Reverted calls have no
effect and leave no event. -/
theorem effective_governance {event : ChainEvent} (effective : Effective (chain this) event w after) :
    GovernanceStep w.governance (governanceEvent ⟨w, event⟩) after.governance := by
  cases event with
  | resumed pending => exact .of_same rfl (resume_only effective).governance
  | executed action =>
    obtain ⟨continuation, ran⟩ := effective
    cases action with
    | marketplace msg call =>
      obtain ⟨outside, completed, _⟩ := execute_marketplace_ok.mp ran
      exact marketplace_governance outside completed
    | collection sender target call =>
      simp only [chain, execute, bind_ok, ensure_ok, exists_const] at ran
      exact .of_same rfl (collection_only ran.2).governance
    | outsideCall =>
      obtain ⟨rfl, _⟩ : w = after ∧ some Pending.outsideCall = continuation := by
        simpa [chain, execute] using ran
      exact .of_same rfl rfl
    | moveEther source target amount =>
      simp only [chain, execute, bind_ok, ensure_ok, exists_const, completed_ok, moveEther_ok] at ran
      obtain ⟨_, ⟨_, rfl⟩, _⟩ := ran
      exact .of_same rfl rfl
    | setAccount address account =>
      obtain ⟨rfl, _⟩ : { w with accounts := update w.accounts address account } = after ∧
          none = continuation := by
        simpa [chain, execute] using ran
      exact .of_same rfl rfl
    | nextBlock timestamp =>
      simp only [chain, execute, bind_ok, ensure_ok, exists_const, pure_ok, Prod.mk.injEq] at ran
      obtain ⟨_, rfl, _⟩ := ran
      exact .of_same rfl rfl

end Projection

section Steps

variable {history : List ChainReceipt} {receipt : ChainReceipt}

/-- The most recent handover decides who the owner is. Other events leave the owner as it was. -/
theorem marketplaceOwner_cons (deployer : Address) :
    marketplaceOwner deployer (receipt :: history) =
      ((governanceEvent receipt).bind (·.newOwner)).getD (marketplaceOwner deployer history) := by
  rw [marketplaceOwner, latest_cons]
  cases (governanceEvent receipt).bind (·.newOwner) <;> rfl

/-- A category that is added is the last of those that were added. Histories have the newest event
first, and the list has it last. -/
theorem addedCategories_cons : addedCategories (receipt :: history) =
    addedCategories history ++ ((governanceEvent receipt).bind (·.category)).toList :=
  chronicle_cons _ _ _

/-- What a marketplace says of itself is what the governing calls told, and they were all
made by the account it belonged to. -/
structure Governed (deployer : Address) (history : List ChainReceipt) (governance : Governance) :
    Prop where
  owner : governance.owner = marketplaceOwner deployer history
  categories : governance.categories =
    NFTMarketplace.constructorCategories ++ addedCategories history
  ruled : EachAfter (fun receipt older => ∀ call, governanceEvent receipt = some call →
    call.sender = marketplaceOwner deployer older ∧ call.sender ≠ 0) history

/-- The step lemma for the marketplace. One case for each governing call, and one for every other
event. -/
theorem GovernanceStep.governed {deployer : Address} {governance after : Governance}
    (step : GovernanceStep governance (governanceEvent receipt) after)
    (governed : Governed deployer history governance) :
    Governed deployer (receipt :: history) after := by
  generalize seen : governanceEvent receipt = event at step
  have entry : ∀ result, result.owner = (event.bind (·.newOwner)).getD governance.owner →
      result.categories = governance.categories ++ (event.bind (·.category)).toList →
      (∀ call, event = some call → call.sender = governance.owner ∧ call.sender ≠ 0) →
      Governed deployer (receipt :: history) result := by
    intro result owner categories ruled
    refine ⟨?_, ?_, governed.ruled.cons ?_⟩
    · rw [owner, marketplaceOwner_cons, seen, governed.owner]
    · rw [categories, addedCategories_cons, seen, governed.categories, List.append_assoc]
    · rw [seen, ← governed.owner]
      exact ruled
  cases step with
  | idle => exact entry _ rfl (List.append_nil _).symm (by simp)
  | categoryAdded sender category nonzero owner =>
    refine entry _ rfl rfl ?_
    rintro call ⟨⟩
    exact ⟨owner.symm, nonzero⟩
  | handed sender newOwner nonzero owner =>
    refine entry _ rfl (List.append_nil _).symm ?_
    rintro call ⟨⟩
    exact ⟨owner.symm, nonzero⟩

/-- Without an owner the marketplace is not governed. The modifier compares the owner with the
sender, who is never the zero address. -/
theorem GovernanceStep.ownerless {governance after : Governance} {event : Option GovernanceEvent}
    (step : GovernanceStep governance event after) (renounced : governance.owner = 0) :
    after = governance := by
  cases step with
  | idle => rfl
  | categoryAdded sender category nonzero owner | handed sender newOwner nonzero owner =>
    exact absurd (owner.symm.trans renounced) nonzero

/-- Adding categories appends them. This is the loop of the constructor, which the deployer runs. -/
theorem addCategories_appended (sender : Address) (added : List Bytes) (s after : NFTMarketplace)
    (completed : added.foldlM (fun s category => s.addCategory sender category) s = .ok after) :
    after.categories = s.categories ++ added := by
  induction added generalizing s with
  | nil =>
    obtain rfl : after = s := by simpa using completed
    exact (List.append_nil _).symm
  | cons category rest inductionHypothesis =>
    rw [List.foldlM_cons] at completed
    obtain ⟨next, first, remaining⟩ := bind_ok.mp completed
    obtain ⟨_, _, rfl⟩ := NFTMarketplace.addCategory_ok.mp first
    rw [inductionHypothesis _ remaining, List.append_assoc]
    rfl

/-- The owner of a deployed collection. A deployed collection has a creator in the history. -/
theorem Owned.owner {w : World} {collection : Address} {s : NFTCollection}
    (owned : Owned history w.catalogue collection) (found : w.deployed collection = some s) :
    s.owner = collectionOwner collection history := by
  obtain ⟨author, owner⟩ := owned.known s.owner
    (by simp [World.catalogue, found, NFTCollection.issue])
  rw [owner, collectionOwner, author, Option.getD_some]

/-- What the owner alone may do is done by it. These calls are the mint and the handover. -/
theorem StorageStep.governed {this sender : Address} {s after : NFTCollection} {call : StorageEvent}
    (step : StorageStep this s (some call) after) (governs : call.governor = some sender) :
    sender = s.owner ∧ sender ≠ 0 := by
  cases step with
  | minted | handed =>
    cases governs
    exact ⟨Eq.symm ‹_›, ‹_›⟩
  | transferred | labelled | approved | operatorSet => cases governs

/-- Nobody is authorised for a token that does not exist. Its owner is zero, which approves nobody
and has no operators. -/
theorem existing_of_authorised {this sender : Address} {s : NFTCollection} {tokenId : UInt256}
    (unapproved : s.Unapproved this) (nonzero : sender ≠ 0)
    (authorised : s.isAuthorized (s.owners tokenId) sender tokenId = true) :
    s.owners tokenId ≠ 0 := by
  intro absent
  simp only [NFTCollection.isAuthorized, absent, unapproved.absentOperators,
    unapproved.tokens tokenId (.inr absent), Bool.and_eq_true, Bool.or_eq_true, beq_iff_eq]
    at authorised
  rcases authorised.2 with (same | impossible) | same
  · exact nonzero same.symm
  · cases impossible
  · exact nonzero same.symm

/-- Without an owner a collection mints nothing, and is not handed over. Tokens can still be
approved and moved by those who hold them. -/
theorem StorageStep.ownerless {this : Address} {s after : NFTCollection}
    {call : Option StorageEvent} (step : StorageStep this s call after)
    (unapproved : s.Unapproved this) (renounced : s.owner = 0) : after.owner = 0 ∧ after.tokenIds = s.tokenIds ∧
      ∀ tokenId, after.owners tokenId = 0 ↔ s.owners tokenId = 0 := by
  cases step with
  | idle | labelled | approved | operatorSet => exact ⟨renounced, rfl, fun _ => Iff.rfl⟩
  | transferred caller sender source target moved nonzero made given authorised owned =>
    refine ⟨renounced, rfl, ?_⟩
    intro tokenId
    by_cases same : tokenId = moved
    · subst same
      have existing := existing_of_authorised unapproved nonzero authorised
      simp [NFTCollection.reassign, given, existing]
    · simp [NFTCollection.reassign, same]
  | minted sender recipient tokenId tokenURIs nonzero owner =>
    exact absurd (owner.symm.trans renounced) nonzero
  | handed sender newOwner nonzero owner => exact absurd (owner.symm.trans renounced) nonzero

end Steps

namespace Deployment

variable (deployment : Deployment) (moves : List (Move Action))

/-- The marketplace belongs to its deployer or to the account it was last handed over to. It
offers the categories of its constructor and those added since, in their order, and whatever the
owner alone may do was done by the owner of that time. The history is read back to the last
handover before the call, which is what makes "of that time" precise. -/
theorem marketplace_governed :
    Governed deployment.deployer (deployment.history moves) (deployment.world moves).governance :=
  (deployment.trace moves).history_invariant
    (fun history w => Governed deployment.deployer history w.governance)
    (by
      have storage := NFTMarketplace.constructor_frame deployment.constructed
      have added := (bind_ok.mp deployment.constructed).choose_spec.2
      refine ⟨?_, addCategories_appended _ _ _ _ added, eachAfter_nil _⟩
      simp only [World.governance, genesis]
      rw [storage]
      rfl)
    fun _ _ _ _ effective governed => (effective_governance effective).governed governed

/-- A collection belongs to its creator or to the account it was last handed over to, and that
account alone mints in it and hands it over. The marketplace has no say in it, though it created
the collection. -/
theorem collection_governed (collection : Address) :
    (∀ s, (deployment.world moves).deployed collection = some s →
      s.owner = collectionOwner collection (deployment.history moves)) ∧
    EachAfter (fun receipt older => ∀ call sender,
      storageEvent deployment.address collection receipt = some call →
      call.governor = some sender →
      sender = collectionOwner collection older ∧ sender ≠ 0) (deployment.history moves) := by
  have invariant := (deployment.trace moves).history_invariant
    (fun history w => Registry deployment.address w ∧ Owned history w.catalogue collection ∧
      EachAfter (fun receipt older => ∀ call sender,
        storageEvent deployment.address collection receipt = some call →
        call.governor = some sender →
        sender = collectionOwner collection older ∧ sender ≠ 0) history)
    ⟨deployment.genesis_registry, ⟨fun _ => rfl, by simp [World.catalogue, genesis]⟩, eachAfter_nil _⟩
    (by
      rintro event history w after effective ⟨registry, owned, ruled⟩
      have step := effective_catalogue deployment.address_ne_zero registry effective
      refine ⟨(deployment.change effective).registry registry, step.owned owned, ruled.cons ?_⟩
      intro call sender called governs
      cases found : w.deployed collection with
      | none =>
        rw [storageEvent_undeployed effective found] at called
        cases called
      | some s =>
        obtain ⟨_, _, rewritten⟩ := effective_storage deployment.address_ne_zero effective found
        rw [called] at rewritten
        rw [← owned.owner found]
        exact rewritten.governed governs)
  exact ⟨fun s found => invariant.2.1.owner found, invariant.2.2⟩

/-- What an owner renounced stays without one, and as it was: the marketplace offers the same
categories, and a collection has the same tokens, whatever happens. The holders of tokens may
still trade them: it is the set of tokens that stays, not who holds them. -/
theorem renounced_frozen (later : List (Move Action)) (continues : deployment.Continues moves later) :
    ((deployment.world moves).marketplace.owner = 0 →
      (deployment.world (moves ++ later)).governance = (deployment.world moves).governance) ∧
    ∀ collection s, (deployment.world moves).deployed collection = some s → s.owner = 0 →
      ∃ after, (deployment.world (moves ++ later)).deployed collection = some after ∧
        after.owner = 0 ∧ after.totalSupply = s.totalSupply ∧
        ∀ tokenId, after.owners tokenId = 0 ↔ s.owners tokenId = 0 := by
  constructor
  · intro renounced
    refine deployment.since_invariant moves later continues
      (fun _ w => w.governance = (deployment.world moves).governance) (fun _ => rfl) ?_
    intro event _ w after effective _ same
    have step := effective_governance effective
    rw [same] at step
    exact step.ownerless renounced
  · intro collection s found renounced
    refine deployment.since_invariant moves later continues
      (fun _ w => ∃ after, w.deployed collection = some after ∧ after.owner = 0 ∧
        after.totalSupply = s.totalSupply ∧
        ∀ tokenId, after.owners tokenId = 0 ↔ s.owners tokenId = 0)
      (fun _ => ⟨s, found, renounced, rfl, fun _ => Iff.rfl⟩) ?_
    rintro event _ w after effective registry ⟨current, here, ownerless, supply, existing⟩
    obtain ⟨result, left, step⟩ := effective_storage deployment.address_ne_zero effective here
    obtain ⟨stillOwnerless, counted, kept⟩ :=
      step.ownerless (registry.unapproved collection current here) ownerless
    exact ⟨result, left, stillOwnerless, counted.trans supply,
      fun tokenId => (kept tokenId).trans (existing tokenId)⟩

/-- The deployer adds a category and renounces the marketplace, account 11 mints and renounces its
collection. Account 12 holds the only token of the collection. -/
def renouncing : List (Move Action) :=
  [.act (.marketplace ⟨2, 0⟩ (.addCategory (bytes "Sports"))),
    .act (.marketplace ⟨2, 0⟩ .renounceOwnership),
    .act (.marketplace ⟨11, 0⟩ (.createCollection (bytes "Apes") (bytes "APE") [] (bytes "Sports") 100)),
    .act (.collection 11 100 (.mint 12 (bytes "ipfs://ape"))),
    .act (.collection 11 100 .renounceOwnership)]

/-- They try to go on, and the token changes hands. Only the transfer can succeed, for it asks no
owner of a contract. -/
def afterRenouncing : List (Move Action) :=
  [.act (.marketplace ⟨2, 0⟩ (.addCategory (bytes "Memes"))),
    .act (.collection 11 100 (.mint 11 (bytes "ipfs://second"))),
    .act (.collection 12 100 (.transferFrom 12 13 1))]

/-- After the owner added a category and gave up the marketplace, and account 11 gave up its
collection, what others try changes neither the categories nor the supply. -/
theorem renounced_frozen_sample :
    (sample.world (renouncing ++ afterRenouncing)).marketplace.getCategories =
      NFTMarketplace.constructorCategories ++ [bytes "Sports"] ∧
    ∃ after, (sample.world (renouncing ++ afterRenouncing)).deployed 100 = some after ∧
      after.totalSupply = 1 := by
  obtain ⟨market, collections⟩ := renounced_frozen sample renouncing afterRenouncing (.inl (by rfl))
  have facts : ((sample.world renouncing).deployed 100).map (fun s => (s.owner, s.totalSupply)) =
      some (0, 1) := by
    decide +kernel
  obtain ⟨s, found, stored⟩ := Option.map_eq_some_iff.mp facts
  obtain ⟨renounced, supply⟩ := Prod.mk.inj stored
  constructor
  · have same := market (by decide +kernel)
    exact (congrArg Governance.categories same).trans (by decide +kernel)
  · obtain ⟨after, left, _, counted, _⟩ := collections 100 s found renounced
    exact ⟨after, left, counted.trans supply⟩

end Deployment

end OpenBeach
