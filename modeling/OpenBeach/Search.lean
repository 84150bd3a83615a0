import OpenBeach.Library.Loops
import OpenBeach.Library.Occurrences
import OpenBeach.Views

/-!
# Searching collections

The search compares byte strings without regard to the case of letters, and folds a
letter by setting one bit. It walks the collections twice: the size of the result array
has to be known before the first match can be stored.

The length of a byte string in memory, and an index below it, are far from the bound of
a word, so they are numbers here. What the compiler checks is kept: an index against the
length, and a difference against zero.
-/

namespace OpenBeach

open Loops Occurrences Buffers

/-- Read a byte of a string; an index outside it panics with code 0x32. Indexes are unbounded
numbers here, for the loops keep them below the lengths. -/
def byteAt (text : Bytes) (index : Nat) : Except Revert UInt8 :=
  match text[index]? with
  | some byte => .ok byte
  | none => .error (.panic 0x32)

/-- Checked subtraction; underflow panics with code 0x11. It is the bound of the outer loop, which
is computed before the first pass. -/
def checkedSub (left right : Nat) : Except Revert Nat :=
  if right ≤ left then .ok (left - right) else .error (.panic 0x11)

/-- Convert to lowercase if uppercase. Setting the bit of 0x20 is the addition of 32 for these
letters. -/
def toLowercase (b : UInt8) : UInt8 :=
  if 0x41 ≤ b ∧ b ≤ 0x5A then b ||| 0x20 else b

/-- The inner loop of `_containsIgnoreCase`: it ends at the first byte that differs. Whether it
was left early is what the outer loop asks. -/
def foundAt (base search : Bytes) (i : Nat) : Except Revert Bool :=
  (List.range search.length).allM fun j => do
    let b ← byteAt base (i + j)
    let s ← byteAt search j
    pure (toLowercase b == toLowercase s)

/-- `_containsIgnoreCase`. An empty search is found everywhere, and a longer one nowhere. -/
def containsIgnoreCase (base search : Bytes) : Except Revert Bool :=
  if search.length = 0 then .ok true
  else if base.length < search.length then .ok false
  else do
    let last ← checkedSub base.length search.length
    (List.range (last + 1)).anyM fun i => foundAt base search i

section Containment

/-- The fold of the comparison: the bytes of the letters A to Z move up by 0x20, and every
other byte stands for itself. -/
def lower (b : UInt8) : UInt8 := if 0x41 ≤ b ∧ b ≤ 0x5A then b + 0x20 else b

/-- The bit is clear in all those bytes, so setting it adds its value. The bytes are those of the
upper-case letters of ASCII. -/
theorem toLowercase_eq : toLowercase = lower := by
  have each : ∀ bits : BitVec 8,
      toLowercase (UInt8.ofBitVec bits) = lower (UInt8.ofBitVec bits) := by decide
  funext b
  exact each b.toBitVec

variable {base search : Bytes}

/-- A byte within the string is read. Every other index ends the call. -/
theorem byteAt_ok {text : Bytes} {index : Nat} {byte : UInt8} :
    byteAt text index = .ok byte ↔ text[index]? = some byte := by
  unfold byteAt
  cases text[index]? with
  | none => simp
  | some found => simp

/-- The inner loop stays within both strings, and compares them from the offset on. An offset that
leaves room for the search keeps every index in bounds. -/
theorem foundAt_ok {i : Nat} (fits : i + search.length ≤ base.length) :
    foundAt base search i = .ok (decide (OccursAt lower base search i)) := by
  have total : ∀ j ∈ List.range search.length,
      (do
        let b ← byteAt base (i + j)
        let s ← byteAt search j
        pure (toLowercase b == toLowercase s)) =
      (.ok (decide ((base[i + j]?).map lower = (search[j]?).map lower)) :
        Except Revert Bool) := by
    intro j member
    have inside := List.mem_range.mp member
    have inBase : base[i + j]? = some base[i + j] := List.getElem?_eq_getElem (by omega)
    have inSearch : search[j]? = some search[j] := List.getElem?_eq_getElem inside
    rw [byteAt_ok.mpr inBase, byteAt_ok.mpr inSearch, inBase, inSearch, toLowercase_eq]
    simp [bind, Except.bind, pure, Except.pure, Bool.beq_eq_decide_eq]
  refine (allM_ok total).trans (congrArg _ ?_)
  rw [Bool.eq_iff_iff, decide_eq_true_iff, List.all_eq_true]
  simp only [List.mem_range, decide_eq_true_iff]
  rfl

/-- The search succeeds on all byte strings, and decides whether one occurs in the other. Neither
the subtraction nor an index can fail. -/
theorem containsIgnoreCase_ok (base search : Bytes) :
    containsIgnoreCase base search = .ok (decide (Occurs lower base search)) := by
  unfold containsIgnoreCase
  split
  · next empty =>
    obtain rfl := List.length_eq_zero_iff.mp empty
    simp [Occurs.nil]
  · next nonempty =>
    split
    · next short =>
      have absent : ¬ Occurs lower base search := fun occurs =>
        absurd occurs.length_le (Nat.not_le.mpr short)
      simp [absent]
    · next long =>
      have last : checkedSub base.length search.length = .ok (base.length - search.length) :=
        if_pos (Nat.not_lt.mp long)
      have total : ∀ i ∈ List.range (base.length - search.length + 1),
          foundAt base search i = .ok (decide (OccursAt lower base search i)) := by
        intro i member
        have inside := List.mem_range.mp member
        exact foundAt_ok (by omega)
      have found : (List.range (base.length - search.length + 1)).any
          (fun i => decide (OccursAt lower base search i)) = true ↔
          Occurs lower base search := by
        rw [occurs_iff_offset]
        simp only [List.any_eq_true, List.mem_range, decide_eq_true_eq]
        constructor
        · rintro ⟨i, inside, here⟩
          exact ⟨i, by omega, here⟩
        · rintro ⟨i, fits, here⟩
          exact ⟨i, by omega, here⟩
      rw [last]
      refine (anyM_ok total).trans (congrArg _ ?_)
      rw [Bool.eq_iff_iff, found, decide_eq_true_iff]

/-- The comparison neither reads outside a string nor underflows, and finds exactly the contiguous
parts that are equal up to the case of the letters A to Z. All byte strings are meant, whether or
not they are texts. The subtraction is checked, as the compiler makes it, and every access has its
bounds. -/
theorem containsIgnoreCase_exact (base search : Bytes) :
    ∃ result, containsIgnoreCase base search = .ok result ∧
      (result = true ↔ ∃ before found after, base = before ++ found ++ after ∧
        found.length = search.length ∧ found.map lower = search.map lower) := by
  refine ⟨_, containsIgnoreCase_ok base search, ?_⟩
  rw [decide_eq_true_iff]
  exact occurs_iff_split

/-- The bytes next to the letters are not folded. -/
example : containsIgnoreCase (bytes "@[Ape]") (bytes "pE]") = .ok true ∧
    containsIgnoreCase (bytes "@[Ape]") (bytes "\x60\x7bape") = .ok false := by
  decide +kernel

end Containment

namespace NFTMarketplace

/-- What a search shows of a collection: parts of its record and its current floor price. The
fields have the names and the order of the contract's own. -/
structure SearchResult where
  collectionAddress : Address
  name : Bytes
  symbol : Bytes
  category : Bytes
  totalSupply : UInt256
  floorPrice : UInt256
  isActive : Bool
deriving DecidableEq

/-- What a slot of a new array holds before the second loop fills it. It would show up in a result
that the second loop left unfilled. -/
def SearchResult.unset : SearchResult := ⟨0, [], [], [], 0, 0, false⟩

/-- `_matchesSearchCriteria`. An empty term, an empty category and a bound of zero stand for no
filter. The three tests are made in this order, and each is a disjunction. -/
def matchesSearchCriteria (col : Collection) (searchTerm category : Bytes)
    (floorPrice minFloorPrice maxFloorPrice : UInt256) : Except Revert Bool := do
  let matchesSearch ← pure (searchTerm.length == 0) <||>
    containsIgnoreCase col.name searchTerm <||> containsIgnoreCase col.symbol searchTerm
  let matchesCategory ← pure (category.length == 0) <||> containsIgnoreCase col.category category
  let matchesPrice := (minFloorPrice == 0 || decide (minFloorPrice ≤ floorPrice)) &&
    (maxFloorPrice == 0 || decide (floorPrice ≤ maxFloorPrice))
  pure (matchesSearch && matchesCategory && matchesPrice)

/-- The test in the body of both loops of `_searchWithFilters`: a collection that is not
active is passed over. -/
def selects (searchTerm category : Bytes) (minFloorPrice maxFloorPrice : UInt256)
    (s : NFTMarketplace) (collectionAddress : Address) : Except Revert Bool :=
  let col := s.collections collectionAddress
  if col.isActive = false then pure false
  else
    let floorPrice := s.getFloorPrice collectionAddress
    matchesSearchCriteria col searchTerm category floorPrice minFloorPrice maxFloorPrice

/-- The entry stored for a match. The floor price is computed once more for it. -/
def searchResult (s : NFTMarketplace) (collectionAddress : Address) : SearchResult :=
  let col := s.collections collectionAddress
  { collectionAddress := col.collectionAddress
    name := col.name
    symbol := col.symbol
    category := col.category
    totalSupply := col.totalSupply
    floorPrice := s.getFloorPrice collectionAddress
    isActive := true }

/-- `_searchWithFilters`. The first loop counts the matches, the second stores them and
ends once it has stored as many. -/
def searchWithFilters (searchTerm category : Bytes) (minFloorPrice maxFloorPrice : UInt256)
    (s : NFTMarketplace) : Except Revert (List SearchResult) := do
  let resultCount : UInt256 ← s.collectionAddresses.foldlM
    (fun resultCount collectionAddress => do
      if ← s.selects searchTerm category minFloorPrice maxFloorPrice collectionAddress then
        checkedAdd resultCount 1
      else pure resultCount)
    0
  let results := List.replicate resultCount.toNat SearchResult.unset
  let (results, _) ← storeUntil resultCount.toNat
    (fun buffer collectionAddress => do
      if ← s.selects searchTerm category minFloorPrice maxFloorPrice collectionAddress then
        store (.panic 0x32) buffer (s.searchResult collectionAddress)
      else pure buffer)
    s.collectionAddresses (results, 0)
  pure results

/-- `searchCollectionsWithFilters` is the search as it is. The external function only passes its
arguments on. -/
def searchCollectionsWithFilters (searchTerm category : Bytes)
    (minFloorPrice maxFloorPrice : UInt256) (s : NFTMarketplace) :
    Except Revert (List SearchResult) :=
  s.searchWithFilters searchTerm category minFloorPrice maxFloorPrice

/-- What the filters ask of a collection at its floor price. It is the meaning of the three tests,
with the search in strings as an occurrence. -/
structure Matches (searchTerm category : Bytes) (minFloorPrice maxFloorPrice : UInt256)
    (col : Collection) (floorPrice : UInt256) : Prop where
  term : searchTerm = [] ∨ Occurs lower col.name searchTerm ∨ Occurs lower col.symbol searchTerm
  inCategory : category = [] ∨ Occurs lower col.category category
  min : minFloorPrice = 0 ∨ minFloorPrice ≤ floorPrice
  max : maxFloorPrice = 0 ∨ floorPrice ≤ maxFloorPrice

section Searches

variable {searchTerm category : Bytes} {minFloorPrice maxFloorPrice : UInt256}
  {s : NFTMarketplace}

/-- The criteria as a conjunction, so that they can be decided. The order of the conjuncts is that
of the fields. -/
theorem matches_iff {col : Collection} {floorPrice : UInt256} :
    Matches searchTerm category minFloorPrice maxFloorPrice col floorPrice ↔
      (searchTerm = [] ∨ Occurs lower col.name searchTerm ∨ Occurs lower col.symbol searchTerm) ∧
        (category = [] ∨ Occurs lower col.category category) ∧
        (minFloorPrice = 0 ∨ minFloorPrice ≤ floorPrice) ∧
        (maxFloorPrice = 0 ∨ floorPrice ≤ maxFloorPrice) :=
  ⟨fun ⟨term, inCategory, min, max⟩ => ⟨term, inCategory, min, max⟩,
    fun ⟨term, inCategory, min, max⟩ => ⟨term, inCategory, min, max⟩⟩

/-- Whether a collection matches can be evaluated. -/
instance (col : Collection) (floorPrice : UInt256) :
    Decidable (Matches searchTerm category minFloorPrice maxFloorPrice col floorPrice) :=
  decidable_of_iff' _ matches_iff

/-- The criteria can be evaluated for every collection. No string is long enough, and no price
large enough, to make it fail. -/
theorem matchesSearchCriteria_ok (col : Collection) (floorPrice : UInt256) :
    matchesSearchCriteria col searchTerm category floorPrice minFloorPrice maxFloorPrice =
      .ok (decide (Matches searchTerm category minFloorPrice maxFloorPrice col floorPrice)) := by
  have blank : ∀ text : Bytes, (pure (text.length == 0) : Except Revert Bool) =
      .ok (decide (text = [])) := by
    intro text
    cases text <;> rfl
  have term := orM_ok (blank searchTerm) (orM_ok (containsIgnoreCase_ok col.name searchTerm)
    (containsIgnoreCase_ok col.symbol searchTerm))
  have inCategory := orM_ok (blank category) (containsIgnoreCase_ok col.category category)
  unfold matchesSearchCriteria
  rw [term, inCategory]
  refine congrArg Except.ok ?_
  rw [Bool.eq_iff_iff, decide_eq_true_iff, matches_iff]
  simp [and_assoc]

/-- Whether a collection is found. Both loops ask this of every address of the list. -/
def found (searchTerm category : Bytes) (minFloorPrice maxFloorPrice : UInt256)
    (s : NFTMarketplace) (collectionAddress : Address) : Bool :=
  (s.collections collectionAddress).isActive &&
    decide (Matches searchTerm category minFloorPrice maxFloorPrice
      (s.collections collectionAddress) (s.getFloorPrice collectionAddress))

/-- The test in the loops never fails, and finds the active collections that match. A collection
that is not active is skipped before its criteria are looked at. -/
theorem selects_ok (collectionAddress : Address) :
    s.selects searchTerm category minFloorPrice maxFloorPrice collectionAddress =
      .ok (s.found searchTerm category minFloorPrice maxFloorPrice collectionAddress) := by
  unfold selects found
  cases active : (s.collections collectionAddress).isActive with
  | false => simp [active, pure, Except.pure]
  | true => simp [active, matchesSearchCriteria_ok]

/-- The first loop counts the collections found; there are fewer than a word can hold. So the
checked addition in the loop does not overflow. -/
theorem count_ok (p : Address → Bool) (addresses : List Address) (start : UInt256)
    (fits : start.toNat + addresses.length < 2 ^ 256) :
    ∃ resultCount : UInt256, resultCount.toNat = start.toNat + (addresses.filter p).length ∧
      addresses.foldlM (fun resultCount collectionAddress =>
        if p collectionAddress = true then checkedAdd resultCount 1 else pure resultCount) start =
      (.ok resultCount : Except Revert UInt256) := by
  induction addresses generalizing start with
  | nil => exact ⟨start, rfl, rfl⟩
  | cons collectionAddress rest inductionHypothesis =>
    rw [List.length_cons] at fits
    cases passes : p collectionAddress with
    | true =>
      have next : checkedAdd start 1 = .ok ⟨start.toNat + 1, by omega⟩ :=
        checkedAdd_ok.mpr rfl
      obtain ⟨resultCount, counted, rest_ok⟩ :=
        inductionHypothesis ⟨start.toNat + 1, by omega⟩ (by simp only; omega)
      refine ⟨resultCount, ?_, ?_⟩
      · rw [counted, List.filter_cons_of_pos passes, List.length_cons]
        simp only
        omega
      · rw [List.foldlM_cons, if_pos passes, next]
        exact rest_ok
    | false =>
      obtain ⟨resultCount, counted, rest_ok⟩ := inductionHypothesis start (by omega)
      refine ⟨resultCount, ?_, ?_⟩
      · rw [counted, List.filter_cons_of_neg (by simp [passes])]
      · rw [List.foldlM_cons, if_neg (by simp [passes])]
        exact rest_ok

/-- The two loops return the collections found, in the order of the list. The array has room for
exactly those that the first loop counted. -/
theorem searchWithFilters_ok (fits : s.collectionAddresses.length < 2 ^ 256) :
    s.searchWithFilters searchTerm category minFloorPrice maxFloorPrice =
      .ok ((s.collectionAddresses.filter
        (s.found searchTerm category minFloorPrice maxFloorPrice)).map s.searchResult) := by
  obtain ⟨resultCount, counted, count⟩ :=
    count_ok (s.found searchTerm category minFloorPrice maxFloorPrice) s.collectionAddresses 0
      (by rwa [Word.toNat_zero, Nat.zero_add])
  rw [Word.toNat_zero, Nat.zero_add] at counted
  have fill : storeUntil resultCount.toNat
      (fun buffer collectionAddress =>
        if s.found searchTerm category minFloorPrice maxFloorPrice collectionAddress = true then
          store (Revert.panic 0x32) buffer (s.searchResult collectionAddress)
        else .ok buffer)
      s.collectionAddresses (filled [] resultCount.toNat SearchResult.unset) =
      .ok (filled ((s.collectionAddresses.filter
        (s.found searchTerm category minFloorPrice maxFloorPrice)).map s.searchResult) 0
        SearchResult.unset) := by
    rw [counted]
    simpa using storeUntil_ok [] SearchResult.unset fun _ _ _ => rfl
  unfold searchWithFilters
  simp only [selects_ok]
  refine bind_ok.mpr ⟨resultCount, count, ?_⟩
  refine bind_ok.mpr ⟨_, fill, ?_⟩
  simp [filled]

end Searches

end NFTMarketplace

end OpenBeach
