import OpenBeach.Changes

/-!
# The registry invariant

What holds of the two contracts together in every reachable state: no function is
in progress at an event's end, the registered collections are exactly the deployed
ones, and the marketplace has approved nobody for the tokens it holds. With the
last fact a token in its custody moves only when the marketplace moves it.
-/

namespace OpenBeach

open Function Mappings NestedCalls

/-- What holds of the world in every reachable state: the guard is open between calls, the
collections that are deployed are those that are registered, each once, and nobody is approved for
what the marketplace holds. -/
structure Registry (this : Address) (w : World) : Prop where
  unlocked : w.marketplace.entered = false
  fee : w.marketplace.listingFee = NFTMarketplace.initialListingFee
  active : ∀ collection,
    (w.marketplace.collections collection).isActive = (w.deployed collection).isSome
  registered : ∀ collection, collection ∈ w.marketplace.collectionAddresses ↔
    (w.deployed collection).isSome = true
  distinct : w.marketplace.collectionAddresses.Nodup
  marketplaceAbsent : w.deployed this = none
  zeroAbsent : w.deployed 0 = none
  unapproved : ∀ collection s, w.deployed collection = some s → s.Unapproved this
  reports : ∀ collection s, w.deployed collection = some s → s.marketplaceAddress = this

namespace NFTMarketplace

/-- Adding categories writes nothing else. The constructor runs this before the contract has any
other storage. -/
theorem addCategories_frame (sender : Address) (added : List Bytes) (s after : NFTMarketplace)
    (completed : added.foldlM (fun s category => s.addCategory sender category) s = .ok after) :
    after = { s with categories := after.categories, categoryExists := after.categoryExists } := by
  induction added generalizing s with
  | nil =>
    obtain rfl : after = s := by simpa using completed
    rfl
  | cons category rest inductionHypothesis =>
    rw [List.foldlM_cons] at completed
    obtain ⟨next, first, remaining⟩ := bind_ok.mp completed
    obtain ⟨_, _, rfl⟩ := addCategory_ok.mp first
    have frame := inductionHypothesis _ remaining
    exact frame

/-- The constructor leaves the initial storage with some categories. Which categories these are
matters to searches only. -/
theorem constructor_frame {sender : Address} {s : NFTMarketplace}
    (constructed : constructor sender = .ok s) :
    s = { initialStorage sender with
      categories := s.categories, categoryExists := s.categoryExists } := by
  obtain ⟨_, _, added⟩ := bind_ok.mp constructed
  exact addCategories_frame sender constructorCategories (initialStorage sender) s added

end NFTMarketplace

namespace NFTCollection

/-- A new collection: no token exists and nobody is approved. The marketplace is the caller's
choice, so it may be any address. -/
theorem constructor_ok {name symbol baseURI category : Bytes}
    {marketplaceAddress initialOwner : Address} {s : NFTCollection} :
    constructor name symbol baseURI marketplaceAddress category initialOwner = .ok s ↔
      initialOwner ≠ 0 ∧ s =
        { name, symbol, baseURI, marketplaceAddress, category
          owner := initialOwner
          tokenIds := 0
          owners := fun _ => 0
          tokenApprovals := fun _ => 0
          operatorApprovals := fun _ _ => false
          tokenURIs := fun _ => [] } := by
  unfold constructor
  simp only [bind_ok, ensure_ok, pure_ok, exists_const]

/-- In a new collection nobody is approved for anything. This is the base case for every
collection that a run deploys. -/
theorem constructor_unapproved {this : Address} {name symbol baseURI category : Bytes}
    {marketplaceAddress initialOwner : Address} {s : NFTCollection}
    (created : constructor name symbol baseURI marketplaceAddress category initialOwner = .ok s) :
    s.Unapproved this := by
  obtain ⟨_, rfl⟩ := constructor_ok.mp created
  exact ⟨fun _ => rfl, fun _ => rfl, fun _ _ => rfl⟩

end NFTCollection

/-- The registry invariant before the first call. There is no collection, and the guard has never
been used. -/
theorem Deployment.genesis_registry (deployment : Deployment) :
    Registry deployment.address deployment.genesis := by
  have storage := NFTMarketplace.constructor_frame deployment.constructed
  refine ⟨?_, ?_, ?_, ?_, ?_, rfl, rfl, ?_, ?_⟩ <;> simp only [genesis]
  · rw [storage]
    rfl
  · rw [storage]
    rfl
  · intro collection
    rw [storage]
    rfl
  · intro collection
    rw [storage]
    simp [NFTMarketplace.initialStorage]
  · rw [storage]
    exact List.nodup_nil
  · intro collection s impossible
    cases impossible
  · intro collection s impossible
    cases impossible

section Steps

variable {this : Address} {w after : World} {event : ChainEvent}

/-- Events that register no collection keep the invariant if they keep each storage sound. The
registry itself is then the same, and only the storages have to be looked at. -/
theorem Registry.of_frame (registry : Registry this w)
    (unlocked : after.marketplace.entered = false)
    (fee : after.marketplace.listingFee = w.marketplace.listingFee)
    (active : ∀ collection, (after.marketplace.collections collection).isActive =
      (w.marketplace.collections collection).isActive)
    (addresses : after.marketplace.collectionAddresses = w.marketplace.collectionAddresses)
    (present : ∀ collection,
      (after.deployed collection).isSome = (w.deployed collection).isSome)
    (sound : ∀ collection s, after.deployed collection = some s →
      s.Unapproved this ∧ s.marketplaceAddress = this) : Registry this after where
  unlocked := unlocked
  fee := fee.trans registry.fee
  active collection := by rw [active, registry.active, present]
  registered collection := by rw [addresses, registry.registered, present]
  distinct := addresses ▸ registry.distinct
  marketplaceAbsent := by
    have absent := present this
    rw [registry.marketplaceAbsent] at absent
    simpa using absent
  zeroAbsent := by
    have absent := present 0
    rw [registry.zeroAbsent] at absent
    simpa using absent
  unapproved collection s found := (sound collection s found).1
  reports collection s found := (sound collection s found).2

/-- Rewriting the storage of a deployed collection deploys nothing. So the set of collections is
the same before and after. -/
theorem isSome_update {collection : Address} {s result : NFTCollection}
    (found : w.deployed collection = some s) (tested : Address) :
    (update w.deployed collection (some result) tested).isSome =
      (w.deployed tested).isSome := by
  by_cases same : tested = collection
  · subst same
    simp [found]
  · simp [same]

/-- Every storage stays sound when the rewritten one does. All others are as they were. -/
theorem Registry.sound_update (registry : Registry this w) {collection : Address}
    {result : NFTCollection} (unapproved : result.Unapproved this)
    (reports : result.marketplaceAddress = this) (tested : Address) (s : NFTCollection)
    (found : update w.deployed collection (some result) tested = some s) :
    s.Unapproved this ∧ s.marketplaceAddress = this := by
  by_cases same : tested = collection
  · subst same
    obtain rfl : result = s := by simpa using found
    exact ⟨unapproved, reports⟩
  · rw [update_of_ne same] at found
    exact ⟨registry.unapproved tested s found, registry.reports tested s found⟩

/-- A transfer inside a marketplace call reassigns one token. The marketplace gets or gives a
token, and what it holds is still approved for nobody. -/
theorem Registry.sound_transfer (registry : Registry this w) {collection sender source : Address}
    {target : Address} {tokenId : UInt256} {s result : NFTCollection}
    (found : w.deployed collection = some s)
    (moved : NFTCollection.transferFrom sender source target tokenId s = .ok result) :
    ∀ tested storage, update w.deployed collection (some result) tested = some storage →
      storage.Unapproved this ∧ storage.marketplaceAddress = this := by
  obtain ⟨_, _, _, rfl⟩ := NFTCollection.transferFrom_ok.mp moved
  have unapproved : (s.reassign tokenId target).Unapproved this :=
    (registry.unapproved collection s found).reassign tokenId target
  exact registry.sound_update unapproved (registry.reports collection s found)

/-- Every event keeps the invariant. Proof: by the kind of change. Only creating a collection
touches the lists. -/
theorem Change.registry (change : Change this w event after) (registry : Registry this w) :
    Registry this after := by
  have sound : ∀ collection s, w.deployed collection = some s →
      s.Unapproved this ∧ s.marketplaceAddress = this :=
    fun collection s found =>
      ⟨registry.unapproved collection s found, registry.reports collection s found⟩
  cases change with
  | registered msg name symbol baseURI category newCollection storage outside known fresh created =>
    obtain ⟨nonzero, other, absent⟩ := outside_iff.mp fresh
    have blank : storage.Unapproved this := NFTCollection.constructor_unapproved created
    obtain ⟨_, rfl⟩ := NFTCollection.constructor_ok.mp created
    have new : newCollection ∉ w.marketplace.collectionAddresses := by
      rw [registry.registered, absent]
      simp
    refine ⟨registry.unlocked, registry.fee, ?_, ?_, ?_, ?_, ?_, ?_, ?_⟩
    · intro collection
      by_cases same : collection = newCollection <;>
        simp [NFTMarketplace.registering, NFTMarketplace.newRecord, same, registry.active]
    · intro collection
      by_cases same : collection = newCollection <;>
        simp [NFTMarketplace.registering, NFTMarketplace.newRecord, same, registry.registered]
    · refine List.nodup_append.mpr ⟨registry.distinct, List.nodup_singleton _, ?_⟩
      rintro collection member added here rfl
      obtain rfl := List.mem_singleton.mp here
      exact new member
    · exact (update_of_ne other.symm _ _).trans registry.marketplaceAbsent
    · exact (update_of_ne nonzero.symm _ _).trans registry.zeroAbsent
    · intro collection s found
      exact (registry.sound_update blank rfl collection s found).1
    · intro collection s found
      exact (registry.sound_update blank rfl collection s found).2
  | listed msg collection tokenId price s result outside funded unlocked active positive fee found
      moved =>
    exact registry.of_frame rfl rfl (fun _ => rfl) rfl (isSome_update found)
      (registry.sound_transfer found moved)
  | sold msg collection tokenId s result count outside funded unlocked onSale fixed price accepts
      found moved counted =>
    exact registry.of_frame rfl rfl (fun _ => rfl) rfl (isSome_update found)
      (registry.sound_transfer found moved)
  | auctioned => exact registry.of_frame rfl rfl (fun _ => rfl) rfl (fun _ => rfl) sound
  | bid => exact registry.of_frame rfl rfl (fun _ => rfl) rfl (fun _ => rfl) sound
  | offered => exact registry.of_frame rfl rfl (fun _ => rfl) rfl (fun _ => rfl) sound
  | tokens _ collection s result collections quiet unforced found step supply =>
    have unapproved : result.Unapproved this :=
      step.unapproved (registry.unapproved collection s found)
    have reports : result.marketplaceAddress = this :=
      step.marketplace.trans (registry.reports collection s found)
    have active : ∀ tested, (collections tested).isActive =
        (w.marketplace.collections tested).isActive := by
      intro tested
      rw [supply tested]
    exact registry.of_frame registry.unlocked rfl active rfl (isSome_update found)
      (registry.sound_update unapproved reports)
  | quiet => exact registry.of_frame registry.unlocked rfl (fun _ => rfl) rfl (fun _ => rfl) sound

end Steps

namespace Deployment

variable (deployment : Deployment) (moves : List (Move Action))

/-- The successful events behind the current state of a run. So whatever is an invariant of traces
holds of runs, whatever was undone in between. -/
theorem trace : Trace (chain deployment.address) deployment.genesis (deployment.run moves).current :=
  (reachable_trace ⟨moves, rfl⟩).1

/-- Every effective event is one of the classified changes. It is the classification, for the
marketplace of the deployment. -/
theorem change {event : ChainEvent} {w after : World}
    (effective : Effective (chain deployment.address) event w after) :
    Change deployment.address w event after :=
  effective_change deployment.address_ne_zero effective

/-- The registry invariant holds in every state of every run. Everything else about runs starts
from it. -/
theorem registry : Registry deployment.address (deployment.world moves) :=
  (deployment.trace moves).invariant (Registry deployment.address) deployment.genesis_registry
    fun _ _ _ effective => (deployment.change effective).registry

/-- The invariant rule for runs: an event is met as a classified change, in a state
where the registry invariant holds. -/
theorem run_invariant (P : List ChainReceipt → World → Prop) (base : P [] deployment.genesis)
    (keeps : ∀ event history w after, Change deployment.address w event after →
      Registry deployment.address w → P history w → P (⟨w, event⟩ :: history) after) :
    P (deployment.history moves) (deployment.world moves) := by
  have both := (deployment.trace moves).history_invariant
    (fun history w => Registry deployment.address w ∧ P history w)
    ⟨deployment.genesis_registry, base⟩
    fun event history w after effective ⟨registry, holds⟩ =>
      ⟨(deployment.change effective).registry registry,
        keeps event history w after (deployment.change effective) registry holds⟩
  exact both.2

/-- Every event of a run started in a state with the registry invariant. So a step lemma may
assume the invariant of the world that its event found. -/
theorem receipt_registry {receipt : ChainReceipt}
    (member : receipt ∈ (deployment.history moves)) :
    Registry deployment.address receipt.before := by
  have all := deployment.run_invariant moves
    (fun history _ => ∀ receipt ∈ history, Registry deployment.address receipt.before)
    (by simp)
    (by
      intro event history w after change registry inductionHypothesis receipt member
      rcases List.mem_cons.mp member with rfl | member
      · exact registry
      · exact inductionHypothesis receipt member)
  exact all receipt member

/-- The later moves undo nothing that happened: nothing was interrupted when they
began, or they returned control without failing. -/
def Continues (later : List (Move Action)) : Prop :=
  (deployment.run moves).saved = [] ∨
    (deployment.history moves) <:+ deployment.history (moves ++ later)

/-- What happened before the later moves stays in the history. Whoever continues a run cannot undo
what the run has committed. -/
theorem continues_extends (later : List (Move Action)) (continues : deployment.Continues moves later) :
    (deployment.history moves) <:+ (deployment.history (moves ++ later)) := by
  rcases continues with settled | extended
  · have whole : deployment.run (moves ++ later) =
        (deployment.run moves).run (chain deployment.address) later :=
      Config.run_append _ _ moves later
    simp only [history, whole]
    exact settled_extends (deployment.run moves) settled later
  · exact extended

/-- The successful events since some moves, most recent first. It is cut off the longer history by
its length. -/
def since (later : List (Move Action)) : List ChainReceipt :=
  (deployment.history (moves ++ later)).take
    ((deployment.history (moves ++ later)).length - (deployment.history moves).length)

/-- A run that goes on adds its events in front of those that were there. The oldest of them
happened right after the moves. -/
theorem history_append (later : List (Move Action)) (continues : deployment.Continues moves later) :
    deployment.history (moves ++ later) =
      deployment.since moves later ++ deployment.history moves :=
  (List.suffix_iff_eq_append.mp (deployment.continues_extends moves later continues)).symm

/-- The invariant rule for continued runs: what holds before the later moves and is kept by
every event since holds after them, of the events since. -/
theorem since_invariant (later : List (Move Action)) (continues : deployment.Continues moves later)
    (P : List ChainReceipt → World → Prop)
    (started : Registry deployment.address (deployment.world moves) → P [] (deployment.world moves))
    (keeps : ∀ event newer w after, Effective (chain deployment.address) event w after →
      Registry deployment.address w → P newer w → P (⟨w, event⟩ :: newer) after) :
    P (deployment.since moves later) (deployment.world (moves ++ later)) :=
  (deployment.trace moves).extend (deployment.trace (moves ++ later)) (deployment.since moves later)
    (deployment.history_append moves later continues) (Registry deployment.address)
    deployment.genesis_registry
    (fun _ _ _ effective => (deployment.change effective).registry) P started keeps

/-- The rule for continued runs: what every event does between its two states, and
what composes, happens between the states before and after the later moves. -/
theorem continued_invariant (later : List (Move Action)) (continues : deployment.Continues moves later)
    (R : World → World → Prop) (reflexive : ∀ w, R w w)
    (transitive : ∀ first second third, R first second → R second third → R first third)
    (contains : ∀ event w after, Change deployment.address w event after →
      Registry deployment.address w → R w after) :
    R (deployment.world moves) (deployment.world (moves ++ later)) :=
  (deployment.trace moves).monotone (deployment.trace (moves ++ later))
    (deployment.continues_extends moves later continues)
    (Registry deployment.address) deployment.genesis_registry
    (fun _ _ _ effective => (deployment.change effective).registry) R reflexive transitive
    fun event w after effective => contains event w after (deployment.change effective)

end Deployment

end OpenBeach
