import OpenBeach.Catalogue
import OpenBeach.Library.Sequences
import OpenBeach.Views

/-!
# The marketplace's indexes of collections

Creating a collection and adding a category maintain seven structures by hand. They
agree in every reachable state, so the views that walk one index and look up another
neither fail nor lose a record. A record also keeps a copy of the collection's owner,
which no event updates.
-/

namespace OpenBeach

open Function Mappings NestedCalls Sequences Buffers

/-- The structures about collections agree with each other. Each clause says how one of them
follows from the list of collections. -/
structure Catalogue.Indexed (catalogue : Catalogue) : Prop where
  registered : ∀ collection, collection ∈ catalogue.collectionAddresses ↔
    (catalogue.issues collection).isSome = true
  named : ∀ collection ∈ catalogue.collectionAddresses,
    (catalogue.collections collection).collectionAddress = collection
  distinct : catalogue.categories.Nodup
  known : ∀ category, catalogue.categoryExists category = true ↔ category ∈ catalogue.categories
  categorised : ∀ collection ∈ catalogue.collectionAddresses,
    (catalogue.collections collection).category ∈ catalogue.categories
  byCategory : ∀ category, catalogue.categoryToCollections category =
    catalogue.collectionAddresses.filter fun collection =>
      (catalogue.collections collection).category = category
  byOwner : ∀ user, catalogue.userCreatedCollections user =
    catalogue.collectionAddresses.filter fun collection =>
      (catalogue.collections collection).owner = user

section Steps

variable {catalogue after : Catalogue} {event : Option CatalogueEvent}

/-- Steps that rewrite neither an index nor an indexed field keep the agreement. Such are all
steps but those that add a category or a collection. -/
theorem Catalogue.Indexed.of_frame (indexed : catalogue.Indexed)
    (addresses : after.collectionAddresses = catalogue.collectionAddresses)
    (categories : after.categories = catalogue.categories)
    (categoryExists : after.categoryExists = catalogue.categoryExists)
    (byCategory : after.categoryToCollections = catalogue.categoryToCollections)
    (byOwner : after.userCreatedCollections = catalogue.userCreatedCollections)
    (records : ∀ collection, ∃ totalSupply, after.collections collection =
      { catalogue.collections collection with totalSupply })
    (issued : ∀ collection,
      (after.issues collection).isSome = (catalogue.issues collection).isSome) :
    after.Indexed := by
  have fields : ∀ collection,
      (after.collections collection).collectionAddress =
          (catalogue.collections collection).collectionAddress ∧
        (after.collections collection).category = (catalogue.collections collection).category ∧
        (after.collections collection).owner = (catalogue.collections collection).owner := by
    intro collection
    obtain ⟨totalSupply, same⟩ := records collection
    rw [same]
    exact ⟨rfl, rfl, rfl⟩
  refine
    { registered := ?_
      named := ?_
      distinct := categories ▸ indexed.distinct
      known := ?_
      categorised := ?_
      byCategory := ?_
      byOwner := ?_ }
  · intro collection
    rw [addresses, issued]
    exact indexed.registered collection
  · intro collection member
    rw [(fields collection).1]
    exact indexed.named collection (addresses ▸ member)
  · intro k
    rw [categoryExists, categories]
    exact indexed.known k
  · intro collection member
    rw [(fields collection).2.1, categories]
    exact indexed.categorised collection (addresses ▸ member)
  · intro k
    simp only [byCategory, addresses, fields]
    exact indexed.byCategory k
  · intro user
    simp only [byOwner, addresses, fields]
    exact indexed.byOwner user

/-- Adding an unknown category keeps the flags in agreement with the list. The category is put
last, and no category is there twice. -/
theorem category_added {categories : List Bytes} {categoryExists : Bytes → Bool} {category : Bytes}
    (unknown : categoryExists category = false) (distinct : categories.Nodup)
    (known : ∀ tested, categoryExists tested = true ↔ tested ∈ categories) :
    (categories ++ [category]).Nodup ∧
      ∀ tested, update categoryExists category true tested = true ↔
        tested ∈ categories ++ [category] := by
  have new : category ∉ categories := by
    rw [← known, unknown]
    decide
  constructor
  · rw [← List.concat_eq_append]
    exact distinct.concat new
  · intro tested
    by_cases same : tested = category
    · subst same
      simp
    · simp [same, known]

/-- Replacing what a listed collection says lists no other. Only what it says has changed. -/
theorem isSome_setIssue {collection : Address} {issue result : Issue}
    (found : catalogue.issues collection = some issue) (tested : Address) :
    ((catalogue.setIssue collection result).issues tested).isSome =
      (catalogue.issues tested).isSome := by
  by_cases same : tested = collection
  · subst same
    simp [Catalogue.setIssue, found]
  · simp [Catalogue.setIssue, same]

/-- A step of a collection rewrites what it says, and at most one recorded supply. So no index and
no name is touched by it. -/
theorem issued_frame (catalogue : Catalogue) (collection : Address) (event : IssueEvent)
    (issue : Issue) :
    ∃ collections, catalogue.issued collection event issue =
        { catalogue with issues := update catalogue.issues collection (some issue), collections } ∧
      ∀ tested, ∃ totalSupply, collections tested =
        { catalogue.collections tested with totalSupply } := by
  have reported : ∀ tested, ∃ totalSupply,
      update catalogue.collections collection
          { catalogue.collections collection with totalSupply := issue.supply } tested =
        { catalogue.collections tested with totalSupply } := by
    intro tested
    by_cases same : tested = collection
    · subst same
      exact ⟨issue.supply, by simp⟩
    · exact ⟨(catalogue.collections tested).totalSupply, by simp [same]⟩
  cases event with
  | handed => exact ⟨catalogue.collections, rfl, fun _ => ⟨_, rfl⟩⟩
  | minting phase =>
    cases phase with
    | begun => exact ⟨catalogue.collections, rfl, fun _ => ⟨_, rfl⟩⟩
    | finished | whole => exact ⟨_, rfl, reported⟩

/-- An index by a field of the record grows by the new collection where the field is its
key. -/
theorem index_created {β : Type} [DecidableEq β] {addresses : List Address}
    {collections : Address → Collection} {newCollection : Address} (record : Collection)
    (field : Collection → β) (index : β → List Address)
    (indexed : ∀ key, index key =
      addresses.filter fun collection => field (collections collection) = key)
    (new : newCollection ∉ addresses) (key : β) :
    update index (field record) (index (field record) ++ [newCollection]) key =
      (addresses ++ [newCollection]).filter fun collection =>
        field (update collections newCollection record collection) = key := by
  have old : (addresses.filter fun collection =>
      field (update collections newCollection record collection) = key) = index key := by
    rw [indexed]
    apply List.filter_congr
    intro collection member
    have different : collection ≠ newCollection := by
      rintro rfl
      exact new member
    rw [update_of_ne different]
  rw [List.filter_append, old]
  by_cases same : key = field record
  · subst same
    simp
  · simp [update_of_ne same, Ne.symm same]

/-- What every listed record satisfies and the new one too, all satisfy afterwards. The new
address is not listed before, so no listed record is overwritten. -/
theorem records_created {addresses : List Address} {collections : Address → Collection}
    {newCollection : Address} {record : Collection} (p : Address → Collection → Prop)
    (new : newCollection ∉ addresses)
    (old : ∀ collection ∈ addresses, p collection (collections collection))
    (added : p newCollection record) :
    ∀ collection ∈ addresses ++ [newCollection],
      p collection (update collections newCollection record collection) := by
  intro collection member
  rcases List.mem_append.mp member with earlier | here
  · have different : collection ≠ newCollection := fun same => new (same ▸ earlier)
    rw [update_of_ne different]
    exact old collection earlier
  · obtain rfl := List.mem_singleton.mp here
    rwa [update_self]

/-- Every step keeps the indexes in agreement. Proof: by cases; only new categories and new
collections touch an index. -/
theorem CatalogueStep.indexed (step : CatalogueStep catalogue event after)
    (indexed : catalogue.Indexed) : after.Indexed := by
  cases step with
  | idle => exact indexed
  | category category unknown =>
    obtain ⟨distinct, known⟩ := category_added unknown indexed.distinct indexed.known
    refine { indexed with distinct := distinct, known := known, categorised := ?_ }
    intro collection member
    exact List.mem_append_left _ (indexed.categorised collection member)
  | created creator newCollection name symbol baseURI category createdAt known absent =>
    have new : newCollection ∉ catalogue.collectionAddresses := by
      rw [indexed.registered, absent]
      decide
    refine
      { registered := ?_
        named := records_created (fun collection record =>
          record.collectionAddress = collection) new indexed.named rfl
        distinct := indexed.distinct
        known := indexed.known
        categorised := records_created (fun _ record => record.category ∈ catalogue.categories) new
          indexed.categorised ((indexed.known category).mp known)
        byCategory := ?_
        byOwner := ?_ }
    · intro collection
      by_cases same : collection = newCollection
      · subst same
        simp
      · simp [same, indexed.registered]
    · exact index_created (NFTMarketplace.newRecord creator name symbol baseURI category
        newCollection createdAt) Collection.category _ indexed.byCategory new
    · exact index_created (NFTMarketplace.newRecord creator name symbol baseURI category
        newCollection createdAt) Collection.owner _ indexed.byOwner new
  | issued collection event issue result found step =>
    obtain ⟨collections, same, records⟩ := issued_frame catalogue collection event result
    rw [same]
    exact indexed.of_frame rfl rfl rfl rfl rfl records (isSome_setIssue found)

end Steps

namespace NFTMarketplace

/-- Adding categories keeps the flags in agreement with the list. The induction is on the
categories that are still to be added. -/
theorem addCategories_known (sender : Address) (added : List Bytes) (s after : NFTMarketplace)
    (completed : added.foldlM (fun s category => s.addCategory sender category) s = .ok after)
    (distinct : s.categories.Nodup)
    (known : ∀ category, s.categoryExists category = true ↔ category ∈ s.categories) :
    after.categories.Nodup ∧
      ∀ category, after.categoryExists category = true ↔ category ∈ after.categories := by
  induction added generalizing s with
  | nil =>
    obtain rfl : after = s := by simpa using completed
    exact ⟨distinct, known⟩
  | cons category rest inductionHypothesis =>
    rw [List.foldlM_cons] at completed
    obtain ⟨next, first, remaining⟩ := bind_ok.mp completed
    obtain ⟨_, unknown, rfl⟩ := addCategory_ok.mp first
    obtain ⟨still_distinct, still_known⟩ := category_added unknown distinct known
    exact inductionHypothesis _ remaining still_distinct still_known

/-- A record with its statistics. This is what a single view of it shows. -/
def details (s : NFTMarketplace) (collectionAddress : Address) : CollectionDetails where
  basic := s.collections collectionAddress
  floorPrice := s.getFloorPrice collectionAddress
  totalVolume := s.getTotalVolume collectionAddress
  ownerCount := s.getUniqueOwnerCount collectionAddress

/-- The record of a registered collection can be read. Nothing is computed. -/
theorem getCollectionDetails_ok {s : NFTMarketplace} {collectionAddress : Address}
    (active : (s.collections collectionAddress).isActive = true) :
    s.getCollectionDetails collectionAddress = .ok (s.collections collectionAddress) := by
  simp [getCollectionDetails, active]

/-- So can its figures. No figure can make the view fail. The scan for the floor price has no
failing step. -/
theorem fetchCollectionDetails_ok {s : NFTMarketplace} {collectionAddress : Address}
    (active : (s.collections collectionAddress).isActive = true) :
    s.fetchCollectionDetails collectionAddress = .ok (s.details collectionAddress) := by
  simp [fetchCollectionDetails, details, active]

/-- Browsing an existing category reads the records of its index. The array is as long as the
index, so every slot is filled. -/
theorem fetchCollectionsByCategory_ok {s : NFTMarketplace} {category : Bytes}
    (existing : s.categoryExists category = true) :
    s.fetchCollectionsByCategory category =
      .ok ((s.categoryToCollections category).map s.collections) := by
  rw [fetchCollectionsByCategory]
  simp only [bind_ok, require_ok, exists_const, existing, true_and]
  exact collect_ok .unset s.collections fun _ _ => rfl

/-- Listed collections can all be read. All of them are active, which the view checks for each. -/
theorem collect_details (s : NFTMarketplace) {addresses : List Address}
    (listed : addresses ⊆ s.collectionAddresses)
    (active : ∀ collection, collection ∈ s.collectionAddresses ↔
      (s.collections collection).isActive = true) :
    collect (Revert.panic 0x32) .unset
        (fun collectionAddress => s.fetchCollectionDetails collectionAddress) addresses =
      .ok (addresses.map s.details) := by
  apply collect_ok
  intro collection member
  exact fetchCollectionDetails_ok ((active collection).mp (listed member))

/-- The arrays, flags and indexes about collections agree with each other and with the
order in which the collections were created. -/
structure IndexesAgree (s : NFTMarketplace) (created : List Address) : Prop where
  order : s.collectionAddresses = created
  distinct : s.collectionAddresses.Nodup
  active : ∀ collection, collection ∈ s.collectionAddresses ↔
    (s.collections collection).isActive = true
  named : ∀ collection ∈ s.collectionAddresses,
    (s.collections collection).collectionAddress = collection
  categories : s.categories.Nodup
  known : ∀ category, s.categoryExists category = true ↔ category ∈ s.categories
  categorised : ∀ collection ∈ s.collectionAddresses,
    (s.collections collection).category ∈ s.categories
  byCategory : ∀ category, s.categoryToCollections category = s.collectionAddresses.filter
    fun collection => (s.collections collection).category = category
  byOwner : ∀ user, s.userCreatedCollections user = s.collectionAddresses.filter
    fun collection => (s.collections collection).owner = user
  grouped : (s.categories.flatMap s.categoryToCollections).Perm s.collectionAddresses

/-- The views that list collections succeed, and return each record once, in the order of
creation. -/
structure CollectionsShown (s : NFTMarketplace) : Prop where
  all : s.fetchCollections = .ok (s.collectionAddresses.map s.details)
  byOwner : ∀ user, s.fetchUserCreatedCollections user = .ok ((s.collectionAddresses.filter
    fun collection => (s.collections collection).owner = user).map s.details)
  byCategory : ∀ category, s.categoryExists category = true →
    s.fetchCollectionsByCategory category = .ok ((s.collectionAddresses.filter
      fun collection => (s.collections collection).category = category).map s.collections)

/-- Indexes that agree with each other can be walked. Whatever an index holds is a listed
collection, so it can be read. -/
theorem IndexesAgree.shown {s : NFTMarketplace} {created : List Address}
    (agree : s.IndexesAgree created) : s.CollectionsShown where
  all := s.collect_details (List.Subset.refl _) agree.active
  byOwner user := by
    rw [fetchUserCreatedCollections, agree.byOwner user]
    exact s.collect_details (List.filter_subset_self _) agree.active
  byCategory category existing := by
    rw [fetchCollectionsByCategory_ok existing, agree.byCategory category]

end NFTMarketplace

/-- The collection an event creates. Other events create none. -/
def CatalogueEvent.creation : CatalogueEvent → Option Address
  | .created _ newCollection => some newCollection
  | _ => none

/-- The collections created, in the order of their creation. It is read off the history, and so
independent of what is stored. -/
def createdCollections (history : List ChainReceipt) : List Address :=
  chronicle (fun receipt => (catalogueEvent receipt).bind CatalogueEvent.creation) history

namespace Deployment

variable (deployment : Deployment) (moves : List (Move Action))

/-- The constructor's categories are distinct and known, and no collection exists. This is the
base case of the invariant. -/
theorem genesis_indexed : deployment.genesis.catalogue.Indexed := by
  have storage := NFTMarketplace.constructor_frame deployment.constructed
  obtain ⟨_, _, added⟩ := bind_ok.mp deployment.constructed
  obtain ⟨distinct, known⟩ := NFTMarketplace.addCategories_known deployment.deployer _ _ _ added
    List.nodup_nil (by simp [NFTMarketplace.initialStorage])
  have empty : deployment.storage.collectionAddresses = [] := by
    rw [storage]
    rfl
  refine
    { registered := ?_
      named := ?_
      distinct := distinct
      known := known
      categorised := ?_
      byCategory := ?_
      byOwner := ?_ } <;> simp only [genesis, World.catalogue, empty]
  · simp
  · simp
  · simp
  · rw [storage]
    exact fun _ => rfl
  · rw [storage]
    exact fun _ => rfl

/-- The indexes agree in every reachable state. Views and searches are shown to work by it. -/
theorem indexed : (deployment.world moves).catalogue.Indexed :=
  deployment.catalogue_invariant moves (fun _ catalogue => catalogue.Indexed)
    deployment.genesis_indexed fun _ _ _ _ step => step.indexed

/-- Collections are listed in the order of their creation. Nothing is taken out of the list, and
nothing is moved in it. -/
theorem created_order : (deployment.world moves).marketplace.collectionAddresses =
    createdCollections (deployment.history moves) := by
  apply deployment.catalogue_invariant moves fun history catalogue =>
    catalogue.collectionAddresses = createdCollections history
  · rw [World.catalogue, genesis, NFTMarketplace.constructor_frame deployment.constructed]
    rfl
  · intro event history w after step same
    rw [createdCollections, chronicle_cons, ← createdCollections, ← same]
    generalize catalogueEvent ⟨w, event⟩ = kind at step
    cases step with
    | idle | category | created => simp [CatalogueEvent.creation]
    | issued collection event issue result =>
      obtain ⟨collections, whole, _⟩ := issued_frame w.catalogue collection event result
      simp [CatalogueEvent.creation, whole]

/-- The registry's arrays, flags and indexes agree in every reachable state, and the views that
list collections return every record exactly once. Seven structures are written by hand at each
creation; the invariant says how each of them follows from the list of collections. -/
theorem registry_indexes :
    (deployment.world moves).marketplace.IndexesAgree
        (createdCollections (deployment.history moves)) ∧
      (deployment.world moves).marketplace.CollectionsShown := by
  have registry := deployment.registry moves
  have indexed := deployment.indexed moves
  have agree : (deployment.world moves).marketplace.IndexesAgree
      (createdCollections (deployment.history moves)) :=
    { order := deployment.created_order moves
      distinct := registry.distinct
      active := by
        intro collection
        rw [registry.registered, registry.active]
      named := indexed.named
      categories := indexed.distinct
      known := indexed.known
      categorised := indexed.categorised
      byCategory := indexed.byCategory
      byOwner := indexed.byOwner
      grouped := by
        have groups := funext indexed.byCategory
        simp only [World.catalogue] at groups
        rw [groups]
        exact groups_perm _ _ _ indexed.distinct indexed.categorised }
  exact ⟨agree, agree.shown⟩

end Deployment

section Owners

/-- Who creates a given collection by the event. It is the sender of the call. -/
def CatalogueEvent.creator (collection : Address) : CatalogueEvent → Option Address
  | .created creator newCollection => if newCollection = collection then some creator else none
  | _ => none

/-- To whom an event hands the collection over. Renouncing hands over to zero. -/
def IssueEvent.newOwner : IssueEvent → Option Address
  | .handed newOwner => some newOwner
  | .minting _ => none

/-- To whom a given collection is handed over by the event; renouncing it hands it to
the zero address. -/
def CatalogueEvent.newOwner (collection : Address) (event : CatalogueEvent) : Option Address :=
  (event.issue collection).bind IssueEvent.newOwner

/-- The creator of a collection. An address is created only once, so it does not matter in which
order one looks. -/
def creator (collection : Address) (history : List ChainReceipt) : Option Address :=
  history.findSome? fun receipt => (catalogueEvent receipt).bind (·.creator collection)

/-- The account that a collection was last handed over to. There is none as long as the creator
keeps it. -/
def latestHandover (collection : Address) (history : List ChainReceipt) : Option Address :=
  history.findSome? fun receipt => (catalogueEvent receipt).bind (·.newOwner collection)

/-- A collection has one creator, and events after its creation do not change who that is. So it
is enough to look at the older events, unless this one is the creation. -/
theorem creator_cons (collection : Address) (receipt : ChainReceipt)
    (history : List ChainReceipt) :
    creator collection (receipt :: history) =
      ((catalogueEvent receipt).bind (·.creator collection)).or (creator collection history) := by
  rw [creator, List.findSome?_cons]
  cases (catalogueEvent receipt).bind (·.creator collection) <;> rfl

/-- The most recent handover of a collection is the one that counts. Older ones count only as long
as there is no newer one. -/
theorem latestHandover_cons (collection : Address) (receipt : ChainReceipt)
    (history : List ChainReceipt) :
    latestHandover collection (receipt :: history) =
      ((catalogueEvent receipt).bind (·.newOwner collection)).or
        (latestHandover collection history) := by
  rw [latestHandover, List.findSome?_cons]
  cases (catalogueEvent receipt).bind (·.newOwner collection) <;> rfl

/-- The marketplace records the creator of a collection; the collection itself knows whom
it was last handed over to. -/
structure Owned (history : List ChainReceipt) (catalogue : Catalogue) (collection : Address) :
    Prop where
  absent : (catalogue.issues collection).map Issue.owner = none →
    latestHandover collection history = none
  known : ∀ owner, (catalogue.issues collection).map Issue.owner = some owner →
    creator collection history = some (catalogue.collections collection).owner ∧
      owner = (latestHandover collection history).getD (catalogue.collections collection).owner

variable {catalogue after : Catalogue} {receipt : ChainReceipt} {history : List ChainReceipt}
  {collection : Address}

/-- Events that neither create the collection nor hand it over. What is known of the owner stays
known. -/
theorem Owned.of_frame (owned : Owned history catalogue collection)
    (uncreated : (catalogueEvent receipt).bind (·.creator collection) = none)
    (kept : (catalogueEvent receipt).bind (·.newOwner collection) = none)
    (owner : (after.issues collection).map Issue.owner =
      (catalogue.issues collection).map Issue.owner)
    (recorded : (after.collections collection).owner = (catalogue.collections collection).owner) :
    Owned (receipt :: history) after collection where
  absent := by
    rw [owner, latestHandover_cons, kept]
    exact owned.absent
  known := by
    rw [owner, recorded, latestHandover_cons, kept, creator_cons, uncreated]
    exact owned.known

/-- A collection is owned by whom it was handed to. Any other step leaves the owner as it is. -/
theorem IssueStep.owner {issue result : Issue} {event : IssueEvent}
    (step : IssueStep issue (some event) result) :
    result.owner = event.newOwner.getD issue.owner := by
  cases step <;> rfl

/-- The step lemma for owners. A creation begins with the creator as the owner, and handovers go
on from there. -/
theorem CatalogueStep.owned (step : CatalogueStep catalogue (catalogueEvent receipt) after)
    (owned : Owned history catalogue collection) : Owned (receipt :: history) after collection := by
  generalize seen : catalogueEvent receipt = event at step
  have frame := @Owned.of_frame catalogue after receipt history collection owned
  rw [seen] at frame
  cases step with
  | idle => exact frame rfl rfl rfl rfl
  | category => exact frame rfl rfl rfl rfl
  | created author newCollection name symbol baseURI category createdAt known absent =>
    by_cases here : newCollection = collection
    · subst here
      have kept : latestHandover newCollection history = none := owned.absent (by rw [absent]; rfl)
      constructor
      · simp
      · simp [creator_cons, latestHandover_cons, seen, CatalogueEvent.creator,
          CatalogueEvent.newOwner, CatalogueEvent.issue, kept, NFTMarketplace.newRecord]
    · refine frame (by simp [CatalogueEvent.creator, here]) rfl ?_ ?_
      · simp [update_of_ne (Ne.symm here)]
      · simp [update_of_ne (Ne.symm here)]
  | issued given event issue result found step =>
    obtain ⟨collections, same, records⟩ := issued_frame catalogue given event result
    obtain ⟨totalSupply, record⟩ := records collection
    rw [same] at frame ⊢
    by_cases here : given = collection
    · subst here
      obtain ⟨author, owner⟩ := owned.known issue.owner (by rw [found]; rfl)
      have handover : (catalogueEvent receipt).bind (·.newOwner given) = event.newOwner := by
        simp [seen, CatalogueEvent.newOwner, CatalogueEvent.issue]
      have uncreated : (catalogueEvent receipt).bind (·.creator given) = none := by
        rw [seen]
        rfl
      constructor
      · simp
      · intro newOwner known
        obtain rfl : result.owner = newOwner := by simpa using known
        simp only [creator_cons, latestHandover_cons, handover, uncreated, step.owner, record,
          owner]
        refine ⟨author, ?_⟩
        cases event.newOwner <;> rfl
    · refine frame rfl (by simp [CatalogueEvent.newOwner, CatalogueEvent.issue, here]) ?_ ?_
      · simp [update_of_ne (Ne.symm here)]
      · simp only [record]

end Owners

namespace NFTMarketplace

/-- The marketplace names an owner of a collection wherever it shows one. There are two views that
show it, besides those of lists. -/
structure OwnerRecorded (s : NFTMarketplace) (collection owner : Address) : Prop where
  basic : (s.getCollectionDetails collection).map Collection.owner = .ok owner
  details : (s.fetchCollectionDetails collection).map (fun details => details.basic.owner) =
    .ok owner
  grouped : ∀ user, collection ∈ s.userCreatedCollections user ↔ user = owner

end NFTMarketplace

namespace Deployment

variable (deployment : Deployment) (moves : List (Move Action)) (collection : Address)

/-- Owners in every reachable state. It is the invariant rule of the catalogue, applied to the
step lemma. -/
theorem owned : Owned (deployment.history moves) (deployment.world moves).catalogue collection := by
  apply deployment.catalogue_invariant moves fun history catalogue =>
    Owned history catalogue collection
  · constructor
    · exact fun _ => rfl
    · intro owner impossible
      cases impossible
  · intro event history w after step holds
    exact step.owned holds

/-- The owner shown for a registered collection is the one in its record. Both views read the same
record. -/
theorem ownerRecorded_iff (owner : Address)
    (registered : ((deployment.world moves).deployed collection).isSome = true) :
    (deployment.world moves).marketplace.OwnerRecorded collection owner ↔
      ((deployment.world moves).marketplace.collections collection).owner = owner := by
  have registry := deployment.registry moves
  have indexed := deployment.indexed moves
  have active := (registry.active collection).trans registered
  have listed := (registry.registered collection).mpr registered
  have grouped : ∀ user, collection ∈ (deployment.world moves).marketplace.userCreatedCollections user ↔
      ((deployment.world moves).marketplace.collections collection).owner = user := by
    intro user
    have index : (deployment.world moves).marketplace.userCreatedCollections user = _ :=
      indexed.byOwner user
    rw [index, List.mem_filter, decide_eq_true_iff]
    exact and_iff_right listed
  constructor
  · intro recorded
    exact (grouped owner).mp ((recorded.grouped owner).mpr rfl)
  · rintro rfl
    exact
      { basic := by
          rw [NFTMarketplace.getCollectionDetails_ok active]
          rfl
        details := by
          rw [NFTMarketplace.fetchCollectionDetails_ok active]
          rfl
        grouped := fun user => (grouped user).trans eq_comm }

/-- A collection's own owner is the only account that can mint in it. The marketplace shows this
account exactly while the collection was never handed over, or was last handed back to its
creator. The record is written when the collection is created, and no function of either contract
reports a handover to it. -/
theorem owner_recorded_exact :
    ((∀ s, (deployment.world moves).deployed collection = some s →
        (deployment.world moves).marketplace.OwnerRecorded collection s.owner) ↔
      ∀ newOwner, latestHandover collection (deployment.history moves) = some newOwner →
        creator collection (deployment.history moves) = some newOwner) ∧
    ∀ s, (deployment.world moves).deployed collection = some s →
      ∀ sender recipient begun, s.beginMint sender recipient = .ok begun → sender = s.owner := by
  have owned := deployment.owned moves collection
  constructor
  · cases found : (deployment.world moves).deployed collection with
    | none =>
      have kept := owned.absent (by simp [World.catalogue, found])
      simp [kept]
    | some s =>
      obtain ⟨author, owner⟩ := owned.known s.owner (by simp [World.catalogue, found, NFTCollection.issue])
      have recorded := deployment.ownerRecorded_iff moves collection s.owner
        (by rw [found]; rfl)
      simp only [Option.some.injEq, forall_eq', recorded, author]
      cases latest : latestHandover collection (deployment.history moves) with
      | none =>
        rw [latest] at owner
        simpa [World.catalogue] using owner.symm
      | some newOwner =>
        rw [latest] at owner
        obtain rfl : s.owner = newOwner := owner
        simp [World.catalogue]
  · intro s _ sender recipient begun ran
    obtain ⟨newTokenId, minted⟩ := begun
    exact (NFTCollection.beginMint_ok.mp ran).1.symm

/-- Account 11 creates a collection at address 100 and hands it over to account 12. The record in
the marketplace was written by the first of the two calls. -/
def handedOver : List (Move Action) :=
  [.act (.marketplace ⟨11, 0⟩ (.createCollection (bytes "Apes") (bytes "APE") [] (bytes "Art") 100)),
    .act (.collection 11 100 (.transferOwnership 12))]

/-- The marketplace goes on to show account 11, which cannot mint any more. Account 12, which can,
is nowhere in the record. -/
theorem former_owner_recorded :
    ((sample.world handedOver).deployed 100).map NFTCollection.owner = some 12 ∧
      (sample.world handedOver).marketplace.OwnerRecorded 100 11 := by
  constructor
  · decide +kernel
  · exact (sample.ownerRecorded_iff handedOver 100 11 (by decide +kernel)).mpr (by decide +kernel)

end Deployment

end OpenBeach
