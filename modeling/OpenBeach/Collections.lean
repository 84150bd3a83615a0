import OpenBeach.Catalogue

/-!
# One collection in a run

An event rewrites the storage of a collection in one way only: it is a call of one of the
collection's functions, made by an account or by the marketplace on behalf of one. What
holds of a collection alone is proved by cases on these calls.
-/

namespace OpenBeach

open Function Mappings NestedCalls

/-- A call of a collection's function. A transfer is asked for by a caller and made by a
sender, which differ when the marketplace moves the token. A mint is told by the identifier
it gave; zero stands for no owner. -/
inductive StorageEvent where
  | transferred (caller sender source target : Address) (tokenId : UInt256) : StorageEvent
  | minted (sender recipient : Address) (tokenId : UInt256) : StorageEvent
  | labelled (tokenId : UInt256) (tokenURI : Bytes) : StorageEvent
  | approved (sender target : Address) (tokenId : UInt256) : StorageEvent
  | operatorSet (sender operator : Address) (approved : Bool) : StorageEvent
  | handed (sender newOwner : Address) : StorageEvent
deriving DecidableEq

/-- The call of the given collection that an event is, if it is one. The marketplace calls
collections too, for its own callers. -/
def storageEvent (this collection : Address) (receipt : ChainReceipt) : Option StorageEvent :=
  match receipt.event with
  | .executed (.marketplace msg (.createMarketItem target tokenId _)) =>
    if target = collection then some (.transferred msg.sender this msg.sender this tokenId)
    else none
  | .executed (.marketplace msg (.createMarketSale target tokenId)) =>
    if target = collection then some (.transferred msg.sender this this msg.sender tokenId)
    else none
  | .executed (.collection sender target call) =>
    if target = collection then
      match call with
      | .mint recipient _ =>
        (mintCall collection receipt).map fun mint => .minted sender recipient mint.1
      | .approve approved tokenId => some (.approved sender approved tokenId)
      | .setApprovalForAll operator approved => some (.operatorSet sender operator approved)
      | .transferFrom source recipient tokenId | .safeTransferFrom source recipient tokenId =>
        some (.transferred sender sender source recipient tokenId)
      | .transferOwnership newOwner => some (.handed sender newOwner)
      | .renounceOwnership => some (.handed sender 0)
    else none
  | .resumed (.mint target tokenId tokenURI) =>
    if target = collection then some (.labelled tokenId tokenURI) else none
  | _ => none

/-- What a call does to the storage, with the facts it checked. The marketplace moves its
own tokens, and those of its caller. -/
inductive StorageStep (this : Address) (s : NFTCollection) :
    Option StorageEvent → NFTCollection → Prop where
  | idle : StorageStep this s none s
  | transferred (caller sender source target : Address) (tokenId : UInt256)
      (nonzero : sender ≠ 0) (made : sender = caller ∧ caller ≠ this ∨
        sender = this ∧ (source = caller ∨ source = this)) (given : target ≠ 0)
      (authorised : s.isAuthorized (s.owners tokenId) sender tokenId = true)
      (owned : s.owners tokenId = source) :
      StorageStep this s (some (.transferred caller sender source target tokenId))
        (s.reassign tokenId target)
  | minted (sender recipient : Address) (tokenId : UInt256) (tokenURIs : UInt256 → Bytes)
      (nonzero : sender ≠ 0) (owner : s.owner = sender) (next : tokenId.toNat = s.tokenIds.toNat + 1)
      (given : recipient ≠ 0) (absent : s.owners tokenId = 0) :
      StorageStep this s (some (.minted sender recipient tokenId))
        { { s with tokenIds := tokenId }.reassign tokenId recipient with tokenURIs }
  | labelled (tokenId : UInt256) (tokenURI : Bytes) :
      StorageStep this s (some (.labelled tokenId tokenURI)) (s.setTokenURI tokenId tokenURI)
  | approved (sender target : Address) (tokenId : UInt256) (other : sender ≠ this)
      (existing : s.owners tokenId ≠ 0)
      (allowed : s.owners tokenId = sender ∨ s.operatorApprovals (s.owners tokenId) sender = true) :
      StorageStep this s (some (.approved sender target tokenId))
        { s with tokenApprovals := update s.tokenApprovals tokenId target }
  | operatorSet (sender operator : Address) (approved : Bool) (nonzero : sender ≠ 0)
      (other : sender ≠ this) :
      StorageStep this s (some (.operatorSet sender operator approved))
        { s with operatorApprovals := update₂ s.operatorApprovals sender operator approved }
  | handed (sender newOwner : Address) (nonzero : sender ≠ 0) (owner : s.owner = sender) :
      StorageStep this s (some (.handed sender newOwner)) { s with owner := newOwner }

section Projection

variable {this : Address} {w after : World} {collection : Address} {s : NFTCollection}

/-- What an event leaves of a deployed collection. The collection stays deployed, and its storage
makes the step of the event. -/
def Rewrites (this collection : Address) (w : World) (event : ChainEvent) (s : NFTCollection)
    (after : World) : Prop :=
  ∃ result, after.deployed collection = some result ∧
    StorageStep this s (storageEvent this collection ⟨w, event⟩) result

/-- An event that is not a call of the collection leaves its storage alone. Most events are so,
for most collections. -/
theorem Rewrites.of_apart {event : ChainEvent} (found : w.deployed collection = some s)
    (apart : storageEvent this collection ⟨w, event⟩ = none)
    (same : after.deployed collection = w.deployed collection) :
    Rewrites this collection w event s after := by
  refine ⟨s, same.trans found, ?_⟩
  rw [apart]
  exact .idle

/-- A call that rewrites the storage of the collection it names. If it names another collection,
this one is left alone. -/
theorem Rewrites.of_call {event : ChainEvent} {target : Address}
    {body : NFTCollection → Except Revert NFTCollection}
    (found : w.deployed collection = some s)
    (completed : w.callCollection target body = .ok after)
    (apart : target ≠ collection → storageEvent this collection ⟨w, event⟩ = none)
    (step : ∀ result, target = collection → body s = .ok result →
      StorageStep this s (storageEvent this collection ⟨w, event⟩) result) :
    Rewrites this collection w event s after := by
  obtain ⟨stored, result, here, ran, rfl⟩ := callCollection_ok.mp completed
  by_cases same : target = collection
  · subst same
    obtain rfl : s = stored := Option.some.inj (found.symm.trans here)
    exact ⟨result, update_self _ _ _, step result rfl ran⟩
  · exact .of_apart found (apart same) (update_of_ne (Ne.symm same) _ _)

/-- A transfer that the marketplace makes for its caller. The event names the caller, though it is
the marketplace that transfers. -/
theorem Rewrites.of_market {event : ChainEvent} {target caller source recipient : Address}
    {tokenId : UInt256} {stored result : NFTCollection} (nonzero : this ≠ 0)
    (found : w.deployed collection = some s) (here : w.deployed target = some stored)
    (moved : NFTCollection.transferFrom this source recipient tokenId stored = .ok result)
    (left : after.deployed = update w.deployed target (some result))
    (event_eq : storageEvent this collection ⟨w, event⟩ =
      if target = collection then some (.transferred caller this source recipient tokenId) else none)
    (made : source = caller ∨ source = this) : Rewrites this collection w event s after := by
  by_cases same : target = collection
  · subst same
    obtain rfl : s = stored := Option.some.inj (found.symm.trans here)
    obtain ⟨given, authorised, owned, rfl⟩ := NFTCollection.transferFrom_ok.mp moved
    refine ⟨s.reassign tokenId recipient, by rw [left, update_self], ?_⟩
    rw [event_eq, if_pos rfl]
    exact .transferred caller this source recipient tokenId nonzero (.inr ⟨rfl, made⟩) given
      (authorised nonzero) owned
  · refine .of_apart found (by rw [event_eq, if_neg same]) ?_
    rw [left, update_of_ne (Ne.symm same)]

/-- Calls to the marketplace move tokens when they list and sell; outside accounts cannot
report a supply. -/
theorem marketplace_storage {msg : Msg} {call : NFTMarketplace.Call} (nonzero : this ≠ 0)
    (outside : w.isOutside this msg.sender = true) (found : w.deployed collection = some s)
    (completed : NFTMarketplace.call this msg call w = .ok after) :
    Rewrites this collection w (.executed (.marketplace msg call)) s after := by
  obtain ⟨_, _, absent⟩ := outside_iff.mp outside
  cases call with
  | addCategory category =>
    obtain ⟨_, completed⟩ := NFTMarketplace.nonPayable_ok.mp completed
    obtain ⟨_, _, rfl⟩ := NFTMarketplace.onStorage_ok.mp completed
    exact .of_apart found rfl rfl
  | createCollection name symbol baseURI category newCollection =>
    obtain ⟨_, completed⟩ := NFTMarketplace.nonPayable_ok.mp completed
    obtain ⟨_, fresh, _, _, rfl⟩ := NFTMarketplace.createCollection_ok.mp completed
    refine .of_apart found rfl (update_of_ne ?_ _ _)
    rintro rfl
    exact absurd ((outside_iff.mp fresh).2.2.symm.trans found) (by simp)
  | createMarketItem target tokenId price =>
    obtain ⟨_, completed⟩ := NFTMarketplace.payable_ok.mp completed
    obtain ⟨_, _, _, _, stored, result, here, _, moved, rfl⟩ :=
      NFTMarketplace.createMarketItem_ok.mp completed
    exact .of_market nonzero found here moved rfl rfl (.inl rfl)
  | createMarketSale target tokenId =>
    obtain ⟨_, completed⟩ := NFTMarketplace.payable_ok.mp completed
    obtain ⟨_, _, _, _, _, _, stored, result, _, here, moved, _, rfl⟩ :=
      NFTMarketplace.createMarketSale_ok.mp completed
    exact .of_market nonzero found here moved rfl rfl (.inr rfl)
  | createAuction target tokenId startingPrice duration =>
    obtain ⟨_, completed⟩ := NFTMarketplace.nonPayable_ok.mp completed
    obtain ⟨_, _, _, _, _, rfl⟩ := NFTMarketplace.createAuction_ok.mp completed
    exact .of_apart found rfl rfl
  | placeBid target tokenId =>
    obtain ⟨_, completed⟩ := NFTMarketplace.payable_ok.mp completed
    obtain ⟨_, _, _, _, _, _, rfl⟩ := NFTMarketplace.placeBid_ok.mp completed
    exact .of_apart found rfl rfl
  | makeOffer target tokenId =>
    obtain ⟨_, completed⟩ := NFTMarketplace.payable_ok.mp completed
    obtain ⟨_, _, _, _, rfl⟩ := NFTMarketplace.makeOffer_ok.mp completed
    exact .of_apart found rfl rfl
  | updateCollectionTotalSupply target =>
    obtain ⟨_, completed⟩ := NFTMarketplace.nonPayable_ok.mp completed
    obtain ⟨_, rfl, stored, here, _⟩ :=
      NFTMarketplace.updateCollectionTotalSupply_ok.mp completed
    exact absurd (absent.symm.trans here) (by simp)
  | transferOwnership newOwner =>
    obtain ⟨_, completed⟩ := NFTMarketplace.nonPayable_ok.mp completed
    obtain ⟨_, _, rfl⟩ := NFTMarketplace.onStorage_ok.mp completed
    exact .of_apart found rfl rfl
  | renounceOwnership =>
    obtain ⟨_, completed⟩ := NFTMarketplace.nonPayable_ok.mp completed
    obtain ⟨_, _, rfl⟩ := NFTMarketplace.onStorage_ok.mp completed
    exact .of_apart found rfl rfl

/-- A supply report leaves every collection as it is. It writes to the record of the marketplace
alone. -/
theorem report_deployed {sender target : Address}
    (reported : NFTMarketplace.updateCollectionTotalSupply sender target w = .ok after) :
    after.deployed = w.deployed := by
  obtain ⟨_, _, _, _, rfl⟩ := NFTMarketplace.updateCollectionTotalSupply_ok.mp reported
  rfl

/-- A mint call creates its token, and stores the URI unless its recipient is called. In both
cases the call of the collection is a step of its storage. -/
theorem mint_storage {sender target recipient : Address} {tokenURI : Bytes}
    {continuation : Option Pending} (nonzero : sender ≠ 0)
    (found : w.deployed collection = some s)
    (completed : mint this sender target recipient tokenURI w = .ok (after, continuation)) :
    Rewrites this collection w (.executed (.collection sender target (.mint recipient tokenURI))) s
      after := by
  obtain ⟨stored, newTokenId, minted, here, begun, outcome⟩ := mint_cases completed
  by_cases same : target = collection
  · subst same
    obtain rfl : s = stored := Option.some.inj (found.symm.trans here)
    have call := mintCall_eq tokenURI found begun
    obtain ⟨owner, next, given, absent, rfl⟩ := NFTCollection.beginMint_ok.mp begun
    have step := fun tokenURIs => @StorageStep.minted this s sender recipient newTokenId tokenURIs
      nonzero owner next given absent
    simp only [Rewrites, storageEvent, if_true, call, Option.map_some]
    rcases outcome with ⟨_, rfl, _⟩ | ⟨_, reported, _⟩
    · exact ⟨_, update_self _ _ _, step s.tokenURIs⟩
    · refine ⟨_, ?_, step (update s.tokenURIs newTokenId tokenURI)⟩
      rw [report_deployed reported]
      exact update_self _ _ _
  · refine .of_apart found (by simp [storageEvent, same]) ?_
    rcases outcome with ⟨_, rfl, _⟩ | ⟨_, reported, _⟩
    · exact update_of_ne (Ne.symm same) _ _
    · rw [report_deployed reported]
      exact update_of_ne (Ne.symm same) _ _

/-- Calls to a collection. Proof: by the function that is called; each of them makes a step of its
own kind. -/
theorem collection_storage {sender target : Address} {call : NFTCollection.Call}
    {continuation : Option Pending} (outside : w.isOutside this sender = true)
    (found : w.deployed collection = some s)
    (ran : NFTCollection.call this sender target call w = .ok (after, continuation)) :
    Rewrites this collection w (.executed (.collection sender target call)) s after := by
  obtain ⟨nonzero, other, _⟩ := outside_iff.mp outside
  have transfer : ∀ source recipient tokenId result,
      NFTCollection.transferFrom sender source recipient tokenId s = .ok result →
      StorageStep this s (some (.transferred sender sender source recipient tokenId)) result := by
    intro source recipient tokenId result moved
    obtain ⟨given, authorised, owned, rfl⟩ := NFTCollection.transferFrom_ok.mp moved
    exact .transferred sender sender source recipient tokenId nonzero (.inl ⟨rfl, other⟩) given
      (authorised nonzero) owned
  cases call with
  | mint recipient tokenURI => exact mint_storage nonzero found ran
  | approve approved tokenId =>
    refine .of_call found (completed_ok.mp ran).1 (by simp_all [storageEvent]) ?_
    rintro result rfl accepted
    obtain ⟨existing, allowed, rfl⟩ := NFTCollection.approve_ok.mp accepted
    simp only [storageEvent, if_true]
    exact .approved sender approved tokenId other existing (allowed.resolve_left nonzero)
  | setApprovalForAll operator approved =>
    refine .of_call found (completed_ok.mp ran).1 (by simp_all [storageEvent]) ?_
    rintro result rfl granted
    obtain ⟨_, rfl⟩ := NFTCollection.setApprovalForAll_ok.mp granted
    simp only [storageEvent, if_true]
    exact .operatorSet sender operator approved nonzero other
  | transferFrom source recipient tokenId =>
    refine .of_call found (completed_ok.mp ran).1 (by simp_all [storageEvent]) ?_
    rintro result rfl moved
    simp only [storageEvent, if_true]
    exact transfer source recipient tokenId result moved
  | safeTransferFrom source recipient tokenId =>
    refine .of_call found (safeTransferFrom_moved ran) (by simp_all [storageEvent]) ?_
    rintro result rfl moved
    simp only [storageEvent, if_true]
    exact transfer source recipient tokenId result moved
  | transferOwnership newOwner =>
    refine .of_call found (completed_ok.mp ran).1 (by simp_all [storageEvent]) ?_
    rintro result rfl transferred
    obtain ⟨owner, _, rfl⟩ := NFTCollection.transferOwnership_ok.mp transferred
    simp only [storageEvent, if_true]
    exact .handed sender newOwner nonzero owner
  | renounceOwnership =>
    refine .of_call found (completed_ok.mp ran).1 (by simp_all [storageEvent]) ?_
    rintro result rfl renounced
    obtain ⟨owner, rfl⟩ := NFTCollection.renounceOwnership_ok.mp renounced
    simp only [storageEvent, if_true]
    exact .handed sender 0 nonzero owner

/-- The projection: every effective event makes a step of every deployed collection. It is put
together from the calls of both contracts and from resumed mints. -/
theorem effective_storage {event : ChainEvent} (nonzero : this ≠ 0)
    (effective : Effective (chain this) event w after) (found : w.deployed collection = some s) :
    Rewrites this collection w event s after := by
  cases event with
  | resumed pending =>
    cases pending with
    | mint target newTokenId tokenURI =>
      obtain ⟨stored, here, _, reported⟩ := resume_mint_ok.mp effective
      by_cases same : target = collection
      · subst same
        obtain rfl : s = stored := Option.some.inj (found.symm.trans here)
        simp only [Rewrites, storageEvent, if_true, report_deployed reported]
        exact ⟨_, update_self _ _ _, .labelled newTokenId tokenURI⟩
      · refine .of_apart found (by simp [storageEvent, same]) ?_
        rw [report_deployed reported]
        exact update_of_ne (Ne.symm same) _ _
    | safeTransferFrom | outsideCall =>
      obtain rfl := Except.ok.inj effective
      exact .of_apart found rfl rfl
  | executed action =>
    obtain ⟨continuation, ran⟩ := effective
    cases action with
    | marketplace msg call =>
      obtain ⟨outside, completed, _⟩ := execute_marketplace_ok.mp ran
      exact marketplace_storage nonzero outside found completed
    | collection sender target call =>
      simp only [chain, execute, bind_ok, ensure_ok, exists_const] at ran
      exact collection_storage ran.1 found ran.2
    | outsideCall =>
      obtain ⟨rfl, _⟩ : w = after ∧ some Pending.outsideCall = continuation := by
        simpa [chain, execute] using ran
      exact .of_apart found rfl rfl
    | moveEther source target amount =>
      simp only [chain, execute, bind_ok, ensure_ok, exists_const, completed_ok, moveEther_ok] at ran
      obtain ⟨_, ⟨_, rfl⟩, _⟩ := ran
      exact .of_apart found rfl rfl
    | setAccount address account =>
      obtain ⟨rfl, _⟩ : { w with accounts := update w.accounts address account } = after ∧
          none = continuation := by
        simpa [chain, execute] using ran
      exact .of_apart found rfl rfl
    | nextBlock timestamp =>
      simp only [chain, execute, bind_ok, ensure_ok, exists_const, pure_ok, Prod.mk.injEq] at ran
      obtain ⟨_, rfl, _⟩ := ran
      exact .of_apart found rfl rfl

/-- Only a deployed collection is called. So what is told of a collection begins with its
creation. -/
theorem storageEvent_undeployed {event : ChainEvent} (effective : Effective (chain this) event w after)
    (absent : w.deployed collection = none) : storageEvent this collection ⟨w, event⟩ = none := by
  have missing : ∀ stored, w.deployed collection ≠ some stored := by simp [absent]
  have called : ∀ target body, w.callCollection target body = .ok after → target ≠ collection := by
    rintro target body completed rfl
    obtain ⟨stored, _, here, _⟩ := callCollection_ok.mp completed
    exact missing stored here
  cases event with
  | resumed pending =>
    cases pending with
    | mint target newTokenId tokenURI =>
      obtain ⟨stored, here, _⟩ := resume_mint_ok.mp effective
      have apart : target ≠ collection := fun same => missing stored (same ▸ here)
      simp [storageEvent, apart]
    | safeTransferFrom | outsideCall => rfl
  | executed action =>
    obtain ⟨continuation, ran⟩ := effective
    cases action with
    | marketplace msg call =>
      obtain ⟨_, completed, _⟩ := execute_marketplace_ok.mp ran
      cases call with
      | createMarketItem target tokenId price =>
        obtain ⟨_, completed⟩ := NFTMarketplace.payable_ok.mp completed
        obtain ⟨_, _, _, _, stored, _, here, _⟩ := NFTMarketplace.createMarketItem_ok.mp completed
        have apart : target ≠ collection := fun same => missing stored (same ▸ here)
        simp [storageEvent, apart]
      | createMarketSale target tokenId =>
        obtain ⟨_, completed⟩ := NFTMarketplace.payable_ok.mp completed
        obtain ⟨_, _, _, _, _, _, stored, _, _, here, _⟩ :=
          NFTMarketplace.createMarketSale_ok.mp completed
        have apart : target ≠ collection := fun same => missing stored (same ▸ here)
        simp [storageEvent, apart]
      | addCategory | createCollection | createAuction | placeBid | makeOffer
      | updateCollectionTotalSupply | transferOwnership | renounceOwnership => rfl
    | collection sender target call =>
      simp only [chain, execute, bind_ok, ensure_ok, exists_const] at ran
      have apart : target ≠ collection := by
        cases call with
        | mint recipient tokenURI =>
          obtain ⟨stored, _, _, here, _⟩ := mint_cases ran.2
          exact fun same => missing stored (same ▸ here)
        | safeTransferFrom source recipient tokenId =>
          exact called target _ (safeTransferFrom_moved ran.2)
        | approve | setApprovalForAll | transferFrom | transferOwnership | renounceOwnership =>
          exact called target _ (completed_ok.mp ran.2).1
      simp [storageEvent, apart]
    | outsideCall | moveEther | setAccount | nextBlock => rfl

/-- A collection comes from a call to the marketplace that creates it, and records it. There is no
other way for a collection to appear, and none for it to disappear. -/
theorem Change.deploys {event : ChainEvent} (change : Change this w event after)
    (absent : w.deployed collection = none) :
    after.deployed collection = none ∨
      ∃ msg name symbol baseURI category storage,
        event = .executed
          (.marketplace msg (.createCollection name symbol baseURI category collection)) ∧
        NFTCollection.constructor name symbol baseURI this category msg.sender = .ok storage ∧
        after.deployed collection = some storage ∧
        after.marketplace.collections collection =
          NFTMarketplace.newRecord msg.sender name symbol baseURI category collection w.timestamp := by
  have missing : ∀ target stored, w.deployed target = some stored → collection ≠ target := by
    rintro target stored here rfl
    rw [absent] at here
    cases here
  cases change with
  | registered msg name symbol baseURI category newCollection storage outside known fresh created =>
    by_cases same : collection = newCollection
    · subst same
      exact .inr ⟨msg, name, symbol, baseURI, category, storage, rfl, created, update_self _ _ _,
        update_self _ _ _⟩
    · exact .inl ((update_of_ne same _ _).trans absent)
  | listed msg target tokenId price s result outside funded unlocked active positive fee found =>
    exact .inl ((update_of_ne (missing target s found) _ _).trans absent)
  | sold msg target tokenId s result count outside funded unlocked onSale fixed price accepts found =>
    exact .inl ((update_of_ne (missing target s found) _ _).trans absent)
  | tokens _ target s result collections quiet unforced found =>
    exact .inl ((update_of_ne (missing target s found) _ _).trans absent)
  | auctioned | bid | offered | quiet => exact .inl absent

/-- What a call of a collection, or the rest of one, writes: storages of collections and
records of the marketplace. -/
def CollectionsOnly (w after : World) : Prop :=
  after = { w with
    deployed := after.deployed
    marketplace := { w.marketplace with collections := after.marketplace.collections } }

/-- Replacing the storage of a collection touches no record and no list. Records and lists are in
the storage of the marketplace. -/
theorem setCollection_only (target : Address) (result : NFTCollection) :
    CollectionsOnly w (w.setCollection target result) :=
  rfl

/-- A report of a supply writes one field of one record. Lists, categories and balances are left
alone. -/
theorem report_only {sender target : Address} {result : NFTCollection}
    (reported : NFTMarketplace.updateCollectionTotalSupply sender target
      (w.setCollection target result) = .ok after) : CollectionsOnly w after := by
  obtain ⟨_, _, _, _, rfl⟩ := NFTMarketplace.updateCollectionTotalSupply_ok.mp reported
  rfl

/-- The frame law for calls of collections. They change storages of collections, and supplies that
are recorded. -/
theorem collection_only {sender target : Address} {call : NFTCollection.Call}
    {continuation : Option Pending}
    (ran : NFTCollection.call this sender target call w = .ok (after, continuation)) :
    CollectionsOnly w after := by
  have called : ∀ body, w.callCollection target body = .ok after → CollectionsOnly w after := by
    intro body completed
    obtain ⟨_, _, _, _, rfl⟩ := callCollection_ok.mp completed
    exact setCollection_only _ _
  cases call with
  | mint recipient tokenURI =>
    obtain ⟨_, _, _, _, begun, ⟨_, rfl, _⟩ | ⟨_, reported, _⟩⟩ := mint_cases ran
    · exact setCollection_only _ _
    · exact report_only reported
  | safeTransferFrom source recipient tokenId => exact called _ (safeTransferFrom_moved ran)
  | approve | setApprovalForAll | transferFrom | transferOwnership | renounceOwnership =>
    exact called _ (completed_ok.mp ran).1

/-- The frame law for what remains of an interrupted action. It is only mints that have anything
left to do. -/
theorem resume_only {pending : Pending} (completed : resume this pending w = .ok after) :
    CollectionsOnly w after := by
  cases pending with
  | mint target newTokenId tokenURI =>
    obtain ⟨_, _, _, reported⟩ := resume_mint_ok.mp completed
    exact report_only reported
  | safeTransferFrom | outsideCall =>
    obtain rfl := Except.ok.inj completed
    rfl

end Projection

namespace Deployment

section Rules

variable (deployment : Deployment) (moves : List (Move Action)) (collection : Address)
  (P : List ChainReceipt → NFTCollection → Prop)
  (created : ∀ history w msg name symbol baseURI category storage,
    (∀ receipt ∈ history, storageEvent deployment.address collection receipt = none) →
    NFTCollection.constructor name symbol baseURI deployment.address category msg.sender =
      .ok storage →
    P (⟨w, .executed (.marketplace msg
      (.createCollection name symbol baseURI category collection))⟩ :: history) storage)
  (keeps : ∀ history receipt s after, s.Unapproved deployment.address →
    StorageStep deployment.address s (storageEvent deployment.address collection receipt) after →
    P history s → P (receipt :: history) after)

include created keeps

/-- What holds of a collection when it is created and is kept by its calls holds at the end
of every trace. While it is not deployed there are no calls of it. -/
theorem storage_trace {snapshot : Snapshot World Action Pending}
    (trace : Trace (chain deployment.address) deployment.genesis snapshot) :
    (snapshot.state.deployed collection = none → ∀ receipt ∈ snapshot.history,
        storageEvent deployment.address collection receipt = none) ∧
      ∀ s, snapshot.state.deployed collection = some s → P snapshot.history s := by
  have both := trace.history_invariant
    (fun history w => Registry deployment.address w ∧
      (w.deployed collection = none →
        ∀ receipt ∈ history, storageEvent deployment.address collection receipt = none) ∧
      ∀ s, w.deployed collection = some s → P history s)
    ⟨deployment.genesis_registry, by simp, by simp [genesis]⟩
    (by
      rintro event history w after effective ⟨registry, untouched, holds⟩
      have change := deployment.change effective
      refine ⟨change.registry registry, ?_⟩
      cases found : w.deployed collection with
      | none =>
        refine ⟨fun _ => List.forall_mem_cons.mpr
          ⟨storageEvent_undeployed effective found, untouched found⟩, ?_⟩
        intro s deployed
        rcases change.deploys found with absent | ⟨msg, name, symbol, baseURI, category, storage,
          rfl, constructed, here, _⟩
        · rw [absent] at deployed
          cases deployed
        · obtain rfl : storage = s := Option.some.inj (here.symm.trans deployed)
          exact created history w msg name symbol baseURI category storage (untouched found)
            constructed
      | some s =>
        obtain ⟨result, here, step⟩ := effective_storage deployment.address_ne_zero effective found
        rw [here]
        refine ⟨by simp, ?_⟩
        rintro _ ⟨⟩
        exact keeps history ⟨w, event⟩ s result (registry.unapproved collection s found) step
          (holds s found))
  exact both.2

/-- The invariant rule for one collection over a run. It starts at the creation of the collection,
and follows its storage from there. -/
theorem storage_invariant (s : NFTCollection)
    (found : (deployment.world moves).deployed collection = some s) :
    P (deployment.history moves) s :=
  (deployment.storage_trace collection P created keeps (deployment.trace moves)).2 s found

/-- The invariant rule for one collection, at every call of it in a run. What is known before each
call is what the call could rely on. -/
theorem storage_at (newer older : List ChainReceipt) (receipt : ChainReceipt)
    (recorded : deployment.history moves = newer ++ receipt :: older) (event : StorageEvent)
    (called : storageEvent deployment.address collection receipt = some event) :
    ∃ s after, receipt.before.deployed collection = some s ∧ s.Unapproved deployment.address ∧
      P older s ∧ StorageStep deployment.address s (some event) after := by
  obtain ⟨earlier, trace, state, rfl, _, effective⟩ :=
    (deployment.trace moves).before newer older receipt recorded
  have holds := (deployment.storage_trace collection P created keeps trace).2
  have registry : Registry deployment.address earlier.state :=
    trace.invariant (Registry deployment.address) deployment.genesis_registry
      fun _ _ _ effective => (deployment.change effective).registry
  rw [state] at holds registry
  cases found : receipt.before.deployed collection with
  | none =>
    have silent := storageEvent_undeployed effective found
    rw [called] at silent
    cases silent
  | some s =>
    obtain ⟨after, _, step⟩ := effective_storage deployment.address_ne_zero effective found
    rw [called] at step
    exact ⟨s, after, rfl, registry.unapproved collection s found, holds s found, step⟩

end Rules

end Deployment

end OpenBeach
