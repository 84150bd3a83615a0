import OpenBeach.Indexes
import OpenBeach.Search

/-!
# Search results in a run of the marketplace

The two loops of a search are a filter of the list of collections. Every reachable list
is short enough to count, all its collections are active, and each record names its
collection, so a search never fails and shows what it found. Browsing a category reads an
index by the exact name, and finds a part of what a search for the category finds.
-/

namespace OpenBeach

open Function NestedCalls Occurrences Sequences

/-- Distinct words are no more than there are words. So an enumeration without repetition can be
indexed by a word. -/
theorem Word.length_le_of_nodup {bits : Nat} {words : List (Word bits)}
    (distinct : words.Nodup) : words.length ≤ 2 ^ bits := by
  have numbers : (words.map Word.toNat).Nodup := distinct.map fun _ _ => Word.ext
  have bounded : words.map Word.toNat ⊆ List.range (2 ^ bits) := by
    intro number member
    obtain ⟨word, _, rfl⟩ := List.mem_map.mp member
    exact List.mem_range.mpr word.bound
  simpa using (numbers.subperm bounded).length_le

namespace NFTMarketplace

section Refining

variable {searchTerm category refinedTerm refinedCategory : Bytes}
  {minFloorPrice maxFloorPrice refinedMin refinedMax floorPrice : UInt256} {col : Collection}

/-- A longer term, a longer category and a narrower range of prices match less. Each filter that
is refined selects among what the old one selects. -/
theorem Matches.of_refined (term : Occurs lower refinedTerm searchTerm)
    (inCategory : Occurs lower refinedCategory category) (min : minFloorPrice ≤ refinedMin)
    (max : maxFloorPrice = 0 ∨ refinedMax ≠ 0 ∧ refinedMax ≤ maxFloorPrice)
    (refined : Matches refinedTerm refinedCategory refinedMin refinedMax col floorPrice) :
    Matches searchTerm category minFloorPrice maxFloorPrice col floorPrice where
  term := by
    rcases refined.term with rfl | inName | inSymbol
    · exact .inl term.of_nil
    · exact .inr (.inl (inName.trans term))
    · exact .inr (.inr (inSymbol.trans term))
  inCategory := by
    rcases refined.inCategory with rfl | within
    · exact .inl inCategory.of_nil
    · exact .inr (within.trans inCategory)
  min := by
    rcases refined.min with rfl | above
    · exact .inl (Word.toNat_eq_zero.mp (Nat.le_zero.mp (by simpa using Word.le_def.mp min)))
    · exact .inr (min.trans above)
  max := by
    rcases max with none | ⟨bounded, narrower⟩
    · exact .inl none
    · exact .inr ((refined.max.resolve_left bounded).trans narrower)

/-- A category alone matches the collections whose category contains it. Term and bounds let
everything pass. -/
theorem matches_category : Matches [] category 0 0 col floorPrice ↔
    Occurs lower col.category category := by
  constructor
  · intro found
    rcases found.inCategory with rfl | within
    · exact .nil lower col.category
    · exact within
  · exact fun within => ⟨.inl rfl, .inr within, .inl rfl, .inl rfl⟩

end Refining

/-- What a search shows of a collection. The address is the one it is registered under, and every
field is as stored. -/
def entry (s : NFTMarketplace) (collection : Address) : SearchResult where
  collectionAddress := collection
  name := (s.collections collection).name
  symbol := (s.collections collection).symbol
  category := (s.collections collection).category
  totalSupply := (s.collections collection).totalSupply
  floorPrice := s.getFloorPrice collection
  isActive := true

/-- The search in one pass: the collections that match, in the order of the list. It says what the
two loops compute, without their array. -/
def filtered (searchTerm category : Bytes) (minFloorPrice maxFloorPrice : UInt256)
    (s : NFTMarketplace) : List SearchResult :=
  (s.collectionAddresses.filter fun collection =>
    decide (Matches searchTerm category minFloorPrice maxFloorPrice (s.collections collection)
      (s.getFloorPrice collection))).map s.entry

/-- What the filters ask of a result, as it is shown. Category and floor price are fields of the
result, so it can be asked of the result alone. -/
structure SearchResult.Passes (category : Bytes) (minFloorPrice maxFloorPrice : UInt256)
    (result : SearchResult) : Prop where
  inCategory : category = [] ∨ Occurs lower result.category category
  min : minFloorPrice = 0 ∨ minFloorPrice ≤ result.floorPrice
  max : maxFloorPrice = 0 ∨ result.floorPrice ≤ maxFloorPrice

/-- The filters as a conjunction, so that they can be decided. The term is not among them, for a
result has no record of it. -/
theorem SearchResult.passes_iff {category : Bytes} {minFloorPrice maxFloorPrice : UInt256}
    {result : SearchResult} : result.Passes category minFloorPrice maxFloorPrice ↔
      (category = [] ∨ Occurs lower result.category category) ∧
        (minFloorPrice = 0 ∨ minFloorPrice ≤ result.floorPrice) ∧
        (maxFloorPrice = 0 ∨ result.floorPrice ≤ maxFloorPrice) :=
  ⟨fun ⟨inCategory, min, max⟩ => ⟨inCategory, min, max⟩,
    fun ⟨inCategory, min, max⟩ => ⟨inCategory, min, max⟩⟩

/-- Whether a result passes the filters can be evaluated. -/
instance (category : Bytes) (minFloorPrice maxFloorPrice : UInt256) (result : SearchResult) :
    Decidable (result.Passes category minFloorPrice maxFloorPrice) :=
  decidable_of_iff' _ SearchResult.passes_iff

/-- The collections a search shows, by their addresses. They are in the order of the list, and
each of them matches. -/
theorem filtered_addresses (searchTerm category : Bytes) (minFloorPrice maxFloorPrice : UInt256)
    (s : NFTMarketplace) :
    (s.filtered searchTerm category minFloorPrice maxFloorPrice).map
        SearchResult.collectionAddress =
      s.collectionAddresses.filter fun collection =>
        decide (Matches searchTerm category minFloorPrice maxFloorPrice
          (s.collections collection) (s.getFloorPrice collection)) := by
  rw [filtered, List.map_map]
  exact List.map_id _

end NFTMarketplace

namespace Deployment

variable (deployment : Deployment) (moves : List (Move Action))

/-- A search is a filter of the list of collections. The addresses of the list are distinct, so
there are not too many for the loops. -/
theorem search_ok (searchTerm category : Bytes) (minFloorPrice maxFloorPrice : UInt256) :
    (deployment.world moves).marketplace.searchWithFilters searchTerm category minFloorPrice
        maxFloorPrice =
      .ok ((deployment.world moves).marketplace.filtered searchTerm category minFloorPrice
        maxFloorPrice) := by
  have registry := deployment.registry moves
  have indexed := deployment.indexed moves
  have short : (deployment.world moves).marketplace.collectionAddresses.length < 2 ^ 256 :=
    Nat.lt_of_le_of_lt (Word.length_le_of_nodup registry.distinct)
      (Nat.pow_lt_pow_right (by decide) (by decide))
  have passes : (deployment.world moves).marketplace.collectionAddresses.filter
      ((deployment.world moves).marketplace.found searchTerm category minFloorPrice
        maxFloorPrice) =
      (deployment.world moves).marketplace.collectionAddresses.filter fun collection =>
        decide (NFTMarketplace.Matches searchTerm category minFloorPrice maxFloorPrice
          ((deployment.world moves).marketplace.collections collection)
          ((deployment.world moves).marketplace.getFloorPrice collection)) := by
    apply List.filter_congr
    intro collection member
    have active : ((deployment.world moves).marketplace.collections collection).isActive = true := by
      rw [registry.active, (registry.registered collection).mp member]
    rw [NFTMarketplace.found, active, Bool.true_and]
  rw [NFTMarketplace.searchWithFilters_ok short, passes]
  refine congrArg Except.ok (List.map_congr_left ?_)
  intro collection member
  have named : ((deployment.world moves).marketplace.collections collection).collectionAddress =
      collection := indexed.named collection (List.mem_of_mem_filter member)
  simp [NFTMarketplace.searchResult, NFTMarketplace.entry, named]

/-- In every reachable state every search succeeds, and returns exactly the matching collections
in the order of their creation, each once and none blank. The first loop counts what the second
stores, and both test the same, so the second ends exactly at the last match and never writes
behind the end. -/
theorem search_exact (searchTerm category : Bytes) (minFloorPrice maxFloorPrice : UInt256) :
    (deployment.world moves).marketplace.searchWithFilters searchTerm category minFloorPrice
        maxFloorPrice =
      .ok ((deployment.world moves).marketplace.filtered searchTerm category minFloorPrice
        maxFloorPrice) ∧
    (deployment.world moves).marketplace.collectionAddresses =
      createdCollections (deployment.history moves) ∧
    (((deployment.world moves).marketplace.filtered searchTerm category minFloorPrice
      maxFloorPrice).map NFTMarketplace.SearchResult.collectionAddress).Nodup ∧
    NFTMarketplace.SearchResult.unset ∉ (deployment.world moves).marketplace.filtered searchTerm
      category minFloorPrice maxFloorPrice := by
  refine ⟨deployment.search_ok moves searchTerm category minFloorPrice maxFloorPrice,
    deployment.created_order moves, ?_, ?_⟩
  · rw [NFTMarketplace.filtered_addresses]
    exact (deployment.registry moves).distinct.filter _
  · intro blank
    obtain ⟨collection, _, same⟩ := List.mem_map.mp blank
    have active := congrArg NFTMarketplace.SearchResult.isActive same
    cases active

end Deployment

/-- What browsing and searching both show of a collection. Browsing has more fields, and searching
has a floor price instead. -/
structure Summary where
  collectionAddress : Address
  name : Bytes
  symbol : Bytes
  category : Bytes
  totalSupply : UInt256
deriving DecidableEq

/-- What browsing shows, of what both show. Every field is one of the record. -/
def Collection.summary (record : Collection) : Summary :=
  ⟨record.collectionAddress, record.name, record.symbol, record.category, record.totalSupply⟩

namespace NFTMarketplace

/-- What searching shows, of what both show. The floor price and the flag are left out. -/
def SearchResult.summary (result : SearchResult) : Summary :=
  ⟨result.collectionAddress, result.name, result.symbol, result.category, result.totalSupply⟩

/-- Some collection belongs to another category that contains the given one. A search for the
given category then finds more than browsing it. -/
def Overlaps (s : NFTMarketplace) (category : Bytes) : Prop :=
  ∃ collection ∈ s.collectionAddresses, (s.collections collection).category ≠ category ∧
    Occurs lower (s.collections collection).category category

/-- Browsing shows a part of what searching finds, and all of it exactly if no category
overlaps. -/
structure BrowsingAgrees (s : NFTMarketplace) (category : Bytes) (browsed : List Collection)
    (searched : List SearchResult) : Prop where
  part : (browsed.map Collection.summary).Sublist (searched.map SearchResult.summary)
  whole : browsed.map Collection.summary = searched.map SearchResult.summary ↔
    ¬ s.Overlaps category
  addresses : browsed.map Collection.collectionAddress =
      searched.map SearchResult.collectionAddress ↔ ¬ s.Overlaps category

variable {s : NFTMarketplace} {category : Bytes}

/-- A search for a category finds the collections whose category contains it. Every registered
collection is active, so only its category decides. -/
theorem filtered_category : s.filtered [] category 0 0 =
    (s.collectionAddresses.filter fun collection =>
      decide (Occurs lower (s.collections collection).category category)).map s.entry := by
  simp only [filtered, matches_category]

/-- The two filters agree exactly if no category overlaps. Every category contains itself, so
browsing never finds more than searching. -/
theorem filter_category_eq :
    (s.collectionAddresses.filter fun collection => (s.collections collection).category = category) =
        (s.collectionAddresses.filter fun collection =>
          decide (Occurs lower (s.collections collection).category category)) ↔
      ¬ s.Overlaps category := by
  constructor
  · rintro same ⟨collection, member, other, within⟩
    have kept : collection ∈ s.collectionAddresses.filter fun collection =>
        (s.collections collection).category = category := by
      rw [same]
      exact List.mem_filter.mpr ⟨member, decide_eq_true within⟩
    exact other (of_decide_eq_true (List.mem_filter.mp kept).2)
  · intro disjoint
    apply List.filter_congr
    intro collection member
    rw [decide_eq_decide]
    constructor
    · rintro rfl
      exact .refl lower _
    · intro within
      by_contra other
      exact disjoint ⟨collection, member, other, within⟩

/-- The records of a category's index against the search for the category. Records name their own
addresses, so equal fields mean equal collections. -/
theorem browsingAgrees (named : ∀ collection ∈ s.collectionAddresses,
      (s.collections collection).collectionAddress = collection) :
    s.BrowsingAgrees category
      ((s.collectionAddresses.filter fun collection =>
        (s.collections collection).category = category).map s.collections)
      (s.filtered [] category 0 0) := by
  have summaries : ((s.collectionAddresses.filter fun collection =>
      (s.collections collection).category = category).map s.collections).map Collection.summary =
      (s.collectionAddresses.filter fun collection =>
        (s.collections collection).category = category).map fun collection =>
          (s.entry collection).summary := by
    rw [List.map_map]
    apply List.map_congr_left
    intro collection member
    have here := named collection (List.mem_of_mem_filter member)
    simp [Collection.summary, entry, SearchResult.summary, here]
  have addresses : ((s.collectionAddresses.filter fun collection =>
      (s.collections collection).category = category).map s.collections).map
        Collection.collectionAddress =
      s.collectionAddresses.filter fun collection =>
        (s.collections collection).category = category := by
    rw [List.map_map]
    refine (List.map_congr_left ?_).trans (List.map_id _)
    exact fun collection member => named collection (List.mem_of_mem_filter member)
  have distinct : Injective fun collection => (s.entry collection).summary := fun _ _ same =>
    congrArg Summary.collectionAddress same
  rw [filtered_category]
  refine ⟨?_, ?_, ?_⟩
  · rw [summaries, List.map_map]
    apply selection_sublist
    intro collection same
    rw [same]
    exact .refl lower category
  · rw [summaries, List.map_map, ← filter_category_eq]
    exact (List.map_injective_iff.mpr distinct).eq_iff
  · rw [addresses, List.map_map, ← filter_category_eq]
    exact (List.map_id _).congr_right

end NFTMarketplace

namespace Deployment

variable (deployment : Deployment) (moves : List (Move Action))

/-- Browsing an existing category shows a part of what a search for it finds, in the same order.
Both show the same exactly if no other registered category contains it. The index has the exact
name for its key, while the search takes every category that contains it; the two are related
through the invariant of the registry. -/
theorem category_search (category : Bytes)
    (existing : (deployment.world moves).marketplace.categoryExists category = true) :
    ∃ browsed searched,
      (deployment.world moves).marketplace.fetchCollectionsByCategory category = .ok browsed ∧
      (deployment.world moves).marketplace.searchCollectionsWithFilters [] category 0 0 =
        .ok searched ∧
      (deployment.world moves).marketplace.BrowsingAgrees category browsed searched := by
  have indexed := deployment.indexed moves
  have index : (deployment.world moves).marketplace.categoryToCollections category = _ :=
    indexed.byCategory category
  refine ⟨_, _, NFTMarketplace.fetchCollectionsByCategory_ok existing,
    deployment.search_ok moves [] category 0 0, ?_⟩
  rw [index]
  exact NFTMarketplace.browsingAgrees indexed.named

/-- The owner adds a category that contains another; four collections are opened in three.
Searching for one of the categories finds a collection of another. -/
def sampleCategories : List (Move Action) :=
  [.act (.marketplace ⟨2, 0⟩ (.addCategory (bytes "Digital art"))),
    .act (.marketplace ⟨11, 0⟩
      (.createCollection (bytes "Apes") (bytes "APE") [] (bytes "Art") 100)),
    .act (.marketplace ⟨12, 0⟩
      (.createCollection (bytes "Pixels") (bytes "PIX") [] (bytes "Digital art") 101)),
    .act (.marketplace ⟨13, 0⟩
      (.createCollection (bytes "Tunes") (bytes "TUN") [] (bytes "Music") 102)),
    .act (.marketplace ⟨12, 0⟩
      (.createCollection (bytes "Cats") (bytes "CAT") [] (bytes "Art") 103))]

/-- Browsing one category shows two of them, and a search for it finds the collection of the
longer category in between. -/
theorem sampleCategories_browsed : ∃ browsed searched,
    (sample.world sampleCategories).marketplace.fetchCollectionsByCategory (bytes "Art") =
      .ok browsed ∧
    (sample.world sampleCategories).marketplace.searchCollectionsWithFilters [] (bytes "Art") 0 0 =
      .ok searched ∧
    (sample.world sampleCategories).marketplace.BrowsingAgrees (bytes "Art") browsed searched ∧
    browsed.map Collection.collectionAddress = [100, 103] ∧
    searched.map NFTMarketplace.SearchResult.collectionAddress = [100, 101, 103] := by
  have browsing : ((sample.world sampleCategories).marketplace.fetchCollectionsByCategory
      (bytes "Art")).toOption.map (List.map Collection.collectionAddress) = some [100, 103] := by
    decide +kernel
  have searching : ((sample.world sampleCategories).marketplace.searchCollectionsWithFilters []
      (bytes "Art") 0 0).toOption.map (List.map NFTMarketplace.SearchResult.collectionAddress) =
        some [100, 101, 103] := by
    decide +kernel
  obtain ⟨browsed, searched, browses, searches, agrees⟩ :=
    category_search sample sampleCategories (bytes "Art") (by decide +kernel)
  rw [browses] at browsing
  rw [searches] at searching
  exact ⟨browsed, searched, browses, searches, agrees, Option.some.inj browsing,
    Option.some.inj searching⟩

/-- A search with a longer term, a longer category and a narrower range of floor prices returns a
part of the results. The reason is that occurrence is transitive and that an empty filter, or a
bound of zero, lets everything pass. -/
theorem refined_search (searchTerm category refinedTerm refinedCategory : Bytes)
    (minFloorPrice maxFloorPrice refinedMin refinedMax : UInt256)
    (term : Occurs lower refinedTerm searchTerm) (inCategory : Occurs lower refinedCategory category)
    (min : minFloorPrice ≤ refinedMin)
    (max : maxFloorPrice = 0 ∨ refinedMax ≠ 0 ∧ refinedMax ≤ maxFloorPrice) :
    ∃ refined results,
      (deployment.world moves).marketplace.searchCollectionsWithFilters refinedTerm refinedCategory
        refinedMin refinedMax = .ok refined ∧
      (deployment.world moves).marketplace.searchCollectionsWithFilters searchTerm category
        minFloorPrice maxFloorPrice = .ok results ∧
      refined.Sublist results := by
  refine ⟨_, _, deployment.search_ok moves refinedTerm refinedCategory refinedMin refinedMax,
    deployment.search_ok moves searchTerm category minFloorPrice maxFloorPrice, ?_⟩
  apply selection_sublist
  intro collection found
  exact found.of_refined term inCategory min max

/-- All four filters made stricter at once, on the registry of the sample. The collection of the
sample passes both. -/
theorem sampleListing_refined :
    ∃ refined results,
      (sample.world sampleListing).marketplace.searchCollectionsWithFilters (bytes "APES")
        (bytes "art") 10 2000 = .ok refined ∧
      (sample.world sampleListing).marketplace.searchCollectionsWithFilters (bytes "pe") [] 5 3000 =
        .ok results ∧
      refined.Sublist results :=
  refined_search sample sampleListing (bytes "pe") [] (bytes "APES") (bytes "art") 5 3000 10 2000
    (by decide +kernel) (by decide +kernel) (by decide) (.inr (by decide))

end Deployment

end OpenBeach
