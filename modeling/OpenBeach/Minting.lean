import Mathlib.Data.Set.Card
import Mathlib.Order.Interval.Finset.Nat
import OpenBeach.Catalogue
import OpenBeach.Library.CallFrames

/-!
# Minting in a run of the marketplace

The mint calls of a collection are read off the history of a run, those in progress and
those completed, and every event moves at most one call between the two. Once no mint of
a collection is in progress the marketplace, the collection and its tokens agree on the
supply.
-/

namespace OpenBeach

open Function Mappings NestedCalls

/-- The mint of a given collection that is left to finish, as identifier and URI. A mint of
another collection is none of it. -/
def Pending.minting (collection : Address) : Pending → Option (UInt256 × Bytes)
  | .mint minted newTokenId tokenURI =>
    if minted = collection then some (newTokenId, tokenURI) else none
  | _ => none

/-- The mint calls of a collection in progress, innermost first. Several mints of one collection
can be nested in each other's callbacks. -/
def openMints (this collection : Address) (history : List ChainReceipt) : List (UInt256 × Bytes) :=
  (openCalls (chain this) history).filterMap (mintCall collection)

/-- The mint calls of a collection that ran to their end, the latest first, each as the
identifier it returned and the URI it was called with. -/
def completedMints (this collection : Address) (history : List ChainReceipt) :
    List (UInt256 × Bytes) :=
  (completedCalls (chain this) history).filterMap (mintCall collection)

/-- The phase of a mint call of the collection that an event is. It is read off the step that the
event makes of the catalogue. -/
def mintPhase (collection : Address) (receipt : ChainReceipt) :
    Option (CallEvent (UInt256 × Bytes)) :=
  ((catalogueEvent receipt).bind (·.issue collection)).bind IssueEvent.phase

section Booking

variable {this : Address} {w after : World}

/-- Only mint calls are left as mints of the collection. Such an event leaves all mints of the
collection as they are. -/
structure Unrelated (collection : Address) (receipt : ChainReceipt) (left : Option Pending) :
    Prop where
  call : mintCall collection receipt = none
  phase : mintPhase collection receipt = none
  left : left.bind (Pending.minting collection) = none

/-- A handover is no phase of a mint call. So it books nothing. -/
theorem mintPhase_handed (collection : Address) {receipt : ChainReceipt} {target newOwner : Address}
    (handed : catalogueEvent receipt = some (.issued target (.handed newOwner))) :
    mintPhase collection receipt = none := by
  by_cases same : target = collection <;>
    simp [mintPhase, handed, CatalogueEvent.issue, IssueEvent.phase, same]

/-- A mint call, and whether it is left in progress. Any other action is unrelated to the mints of
the collection. -/
theorem executed_mint (collection : Address) {action : Action} {continuation : Option Pending}
    (ran : execute this action w = .ok (after, continuation)) :
    Unrelated collection ⟨w, .executed action⟩ continuation ∨
      ∃ mint, mintCall collection ⟨w, .executed action⟩ = some mint ∧
        (mintPhase collection ⟨w, .executed action⟩ = some (.begun mint) ∧
            continuation = some (.mint collection mint.1 mint.2) ∨
          mintPhase collection ⟨w, .executed action⟩ = some (.whole mint) ∧
            continuation = none) := by
  cases action with
  | marketplace msg call =>
    obtain ⟨_, _, rfl⟩ := execute_marketplace_ok.mp ran
    refine .inl ⟨rfl, ?_, rfl⟩
    cases call <;> rfl
  | collection sender target call =>
    simp only [execute, bind_ok, ensure_ok, exists_const] at ran
    obtain ⟨_, ran⟩ := ran
    cases call with
    | mint recipient tokenURI =>
      obtain ⟨s, newTokenId, minted, found, begun, outcome⟩ := mint_cases ran
      have call := @mintCall_eq w sender target recipient tokenURI newTokenId s minted found begun
      by_cases same : target = collection
      · subst same
        refine .inr ⟨(newTokenId, tokenURI), call, ?_⟩
        rcases outcome with ⟨called, _, left⟩ | ⟨uncalled, _, left⟩
        · refine .inl ⟨?_, left⟩
          simp [mintPhase, catalogueEvent, call, called, CatalogueEvent.issue, IssueEvent.phase]
        · refine .inr ⟨?_, left⟩
          simp [mintPhase, catalogueEvent, call, uncalled, CatalogueEvent.issue, IssueEvent.phase]
      · refine .inl ⟨by simp [mintCall, same], ?_, ?_⟩
        · simp [mintPhase, catalogueEvent, call, CatalogueEvent.issue, same]
        · rcases outcome with ⟨_, _, rfl⟩ | ⟨_, _, rfl⟩ <;> simp [Pending.minting, same]
    | safeTransferFrom source given tokenId =>
      obtain ⟨_, _, received⟩ := bind_ok.mp ran
      refine .inl ⟨rfl, rfl, ?_⟩
      obtain ⟨_, ⟨_, _, rfl⟩ | ⟨_, _, rfl⟩⟩ := checkOnERC721Received_ok.mp received <;> rfl
    | transferOwnership | renounceOwnership =>
      obtain ⟨_, rfl⟩ := completed_ok.mp ran
      exact .inl ⟨rfl, mintPhase_handed collection rfl, rfl⟩
    | approve | setApprovalForAll | transferFrom =>
      obtain ⟨_, rfl⟩ := completed_ok.mp ran
      exact .inl ⟨rfl, rfl, rfl⟩
  | outsideCall =>
    obtain ⟨_, rfl⟩ : w = after ∧ some Pending.outsideCall = continuation := by
      simpa [execute] using ran
    exact .inl ⟨rfl, rfl, rfl⟩
  | moveEther source target amount =>
    simp only [execute, bind_ok, ensure_ok, exists_const, completed_ok] at ran
    obtain ⟨_, _, rfl⟩ := ran
    exact .inl ⟨rfl, rfl, rfl⟩
  | setAccount address account =>
    obtain ⟨_, rfl⟩ : { w with accounts := update w.accounts address account } = after ∧
        none = continuation := by
      simpa [execute] using ran
    exact .inl ⟨rfl, rfl, rfl⟩
  | nextBlock timestamp =>
    simp only [execute, bind_ok, ensure_ok, exists_const, pure_ok, Prod.mk.injEq] at ran
    obtain ⟨_, _, rfl⟩ := ran
    exact .inl ⟨rfl, rfl, rfl⟩

/-- The call that left a mint to finish is the mint call of that identifier and URI. -/
theorem mintCall_suspends {collection : Address} {continuation : Pending} {call : ChainReceipt}
    (suspends : Suspends (chain this) continuation call) :
    mintCall collection call = continuation.minting collection := by
  obtain ⟨before, event⟩ := call
  cases event with
  | resumed => cases suspends
  | executed action =>
    simp only [Suspends, interrupted, chain] at suspends
    split at suspends
    · next after left ran =>
      obtain rfl : left = some continuation := suspends
      rcases executed_mint collection ran with unrelated | minted
      · rw [unrelated.call]
        exact unrelated.left.symm
      · obtain ⟨mint, call, ⟨_, left⟩ | ⟨_, left⟩⟩ := minted
        · rw [call, Option.some.inj left]
          simp [Pending.minting]
        · cases left
    · cases suspends

/-- The phases of mint calls are what the catalogue sees of them. The two ways to tell them, from
the calls and from the catalogue, come to the same. -/
theorem callEvent_eq (collection : Address) {event : ChainEvent}
    (effective : Effective (chain this) event w after) :
    callEvent (chain this) (mintCall collection) (Pending.minting collection) ⟨w, event⟩ =
      mintPhase collection ⟨w, event⟩ := by
  cases event with
  | resumed pending =>
    cases pending with
    | mint minted newTokenId tokenURI =>
      by_cases same : minted = collection <;>
        simp [callEvent, mintPhase, catalogueEvent, Pending.minting, CatalogueEvent.issue,
          IssueEvent.phase, same]
    | safeTransferFrom | outsideCall => rfl
  | executed action =>
    obtain ⟨continuation, ran⟩ := effective
    have left := interrupted_eq ran
    rcases executed_mint collection ran with unrelated | minted
    · simp only [callEvent, unrelated.call, unrelated.phase]
      rfl
    · obtain ⟨mint, call, ⟨phase, rfl⟩ | ⟨phase, rfl⟩⟩ := minted <;>
        simp [callEvent, call, left, phase]

end Booking

section Records

variable {collection : Address} {catalogue after : Catalogue} {event : Option CatalogueEvent}
  {mints completed nowMints nowCompleted : List (UInt256 × Bytes)} {issue : Issue}

/-- The mint calls of a collection, against the catalogue. Until every mint has reported
the marketplace may lag behind. -/
structure MintsAccounted (collection : Address) (mints completed : List (UInt256 × Bytes))
    (catalogue : Catalogue) : Prop where
  absent : catalogue.issues collection = none → mints = [] ∧ completed = []
  accounted : ∀ issue, catalogue.issues collection = some issue → Accounted mints completed issue
  reported : ∀ issue, catalogue.issues collection = some issue → mints = [] →
    (catalogue.collections collection).totalSupply = issue.supply

/-- Before a collection is created nothing was minted in it. An address is never used twice, so it
begins with nothing. -/
theorem MintsAccounted.untouched (absent : catalogue.issues collection = none) :
    MintsAccounted collection [] [] catalogue where
  absent _ := ⟨rfl, rfl⟩
  accounted issue found := by
    rw [absent] at found
    cases found
  reported issue found := by
    rw [absent] at found
    cases found

/-- Steps of another collection, or of none. Nothing that is accounted for has changed. -/
theorem MintsAccounted.of_frame (accounted : MintsAccounted collection mints completed catalogue)
    (issues : after.issues collection = catalogue.issues collection)
    (records : after.collections collection = catalogue.collections collection) :
    MintsAccounted collection mints completed after where
  absent none := accounted.absent (issues ▸ none)
  accounted issue found := accounted.accounted issue (issues ▸ found)
  reported issue found settled := by
    rw [records]
    exact accounted.reported issue (issues ▸ found) settled

/-- A step of the collection's own. The supply is reported when the last mint in progress ends. -/
theorem MintsAccounted.of_issue (issued : after.issues collection = some issue)
    (accounted : Accounted mints completed issue)
    (reported : mints = [] → (after.collections collection).totalSupply = issue.supply) :
    MintsAccounted collection mints completed after where
  absent none := by
    rw [none] at issued
    cases issued
  accounted found same := by
    obtain rfl : issue = found := Option.some.inj (issued.symm.trans same)
    exact accounted
  reported found same := by
    obtain rfl : issue = found := Option.some.inj (issued.symm.trans same)
    exact reported

/-- A collection's own steps leave the others alone. They are about one entry and one record. -/
theorem issued_other (issued : Address) (step : IssueEvent) (result : Issue)
    (other : collection ≠ issued) :
    (catalogue.issued issued step result).issues collection = catalogue.issues collection ∧
      (catalogue.issued issued step result).collections collection =
        catalogue.collections collection := by
  unfold Catalogue.issued
  split <;> simp [Catalogue.setIssue, Catalogue.report, other]

/-- A mint that is begun has not reported; any other step leaves the record as it was, or
reports. -/
theorem IssueStep.reported {result : Issue} {own : IssueEvent}
    (step : IssueStep issue (some own) result)
    (booked : Booked mints completed own.phase nowMints nowCompleted)
    (reported : mints = [] → (catalogue.collections collection).totalSupply = issue.supply) :
    nowMints = [] →
      ((catalogue.issued collection own result).collections collection).totalSupply =
        result.supply := by
  cases step with
  | begun =>
    cases booked
    intro impossible
    cases impossible
  | finished | whole => simp [Catalogue.issued, Catalogue.report]
  | handed newOwner =>
    cases booked
    exact reported

/-- The step lemma for mints. Proof: by cases on the step, and on whether it is of this
collection. -/
theorem CatalogueStep.mintsAccounted (step : CatalogueStep catalogue event after)
    (booked : Booked mints completed ((event.bind (·.issue collection)).bind IssueEvent.phase)
      nowMints nowCompleted)
    (accounted : MintsAccounted collection mints completed catalogue) :
    MintsAccounted collection nowMints nowCompleted after := by
  cases step with
  | idle =>
    cases booked
    exact accounted
  | category =>
    cases booked
    exact accounted.of_frame rfl rfl
  | created creator newCollection name symbol baseURI category createdAt known absent =>
    cases booked
    by_cases here : collection = newCollection
    · subst here
      obtain ⟨rfl, rfl⟩ := accounted.absent absent
      exact .of_issue (update_self _ _ _) (.created creator) fun _ => by
        simp [NFTMarketplace.newRecord]
    · exact accounted.of_frame (update_of_ne here _ _) (update_of_ne here _ _)
  | issued given own issue result found step =>
    by_cases here : collection = given
    · subst here
      rw [Option.bind_some, CatalogueEvent.issue, if_pos rfl, Option.bind_some] at booked
      refine .of_issue ?_ (step.accounted booked (accounted.accounted issue found))
        (step.reported booked (accounted.reported issue found))
      unfold Catalogue.issued
      split <;> simp [Catalogue.setIssue, Catalogue.report]
    · rw [Option.bind_some, CatalogueEvent.issue, if_neg (Ne.symm here)] at booked
      cases booked
      obtain ⟨issues, records⟩ := issued_other given own result here
      exact accounted.of_frame issues records

end Records

/-- There are as many words from one up to a given word as it says. This is how the number of
existing tokens is counted. -/
theorem ncard_words (supply : UInt256) :
    {word : UInt256 | 1 ≤ word.toNat ∧ word.toNat ≤ supply.toNat}.ncard = supply.toNat := by
  have injective : Injective (Word.toNat : UInt256 → Nat) := fun _ _ => Word.ext
  have numbers : Word.toNat '' {word : UInt256 | 1 ≤ word.toNat ∧ word.toNat ≤ supply.toNat} =
      (Finset.Icc 1 supply.toNat : Set Nat) := by
    ext n
    simp only [Set.mem_image, Set.mem_ofPred_eq, Finset.coe_Icc, Set.mem_Icc]
    constructor
    · rintro ⟨word, within, rfl⟩
      exact within
    · intro within
      exact ⟨⟨n, Nat.lt_of_le_of_lt within.2 supply.bound⟩, within, rfl⟩
  rw [← Set.ncard_image_of_injective _ injective, numbers, Set.ncard_coe_finset, Nat.card_Icc]
  omega

namespace Deployment

variable (deployment : Deployment) (moves : List (Move Action)) (collection : Address)

/-- The mint calls of the collection so far, against the catalogue. It is the property that the
invariant rule is applied to. -/
def MintsTracked (history : List ChainReceipt) (catalogue : Catalogue) : Prop :=
  MintsAccounted collection (openMints deployment.address collection history)
    (completedMints deployment.address collection history) catalogue

/-- The invariant rule for mints: an event is met with its classified change, its step of
the catalogue and its booking, when the mint calls before it are accounted for. -/
theorem mint_invariant (P : List ChainReceipt → World → Prop) (base : P [] deployment.genesis)
    (keeps : ∀ event history w after,
      Change deployment.address w event after → Registry deployment.address w →
      deployment.MintsTracked collection history w.catalogue →
      Booked (openMints deployment.address collection history)
        (completedMints deployment.address collection history) (mintPhase collection ⟨w, event⟩)
        (openMints deployment.address collection (⟨w, event⟩ :: history))
        (completedMints deployment.address collection (⟨w, event⟩ :: history)) →
      P history w → P (⟨w, event⟩ :: history) after) :
    deployment.MintsTracked collection (deployment.history moves)
        (deployment.world moves).catalogue ∧
      P (deployment.history moves) (deployment.world moves) := by
  suffices all : Registry deployment.address (deployment.world moves) ∧
      deployment.MintsTracked collection (deployment.history moves)
        (deployment.world moves).catalogue ∧
      P (deployment.history moves) (deployment.world moves) from all.2
  have trace := deployment.trace moves
  simp only [history, world]
  generalize (deployment.run moves).current = snapshot at trace ⊢
  induction trace with
  | start =>
    have untouched : deployment.MintsTracked collection [] deployment.genesis.catalogue :=
      .untouched rfl
    exact ⟨deployment.genesis_registry, untouched, base⟩
  | advance trace advanced inductionHypothesis =>
    obtain ⟨registry, tracked, holds⟩ := inductionHypothesis
    obtain ⟨event, recorded, effective, booked⟩ := trace.booked advanced
      fun _ _ suspends => @mintCall_suspends _ collection _ _ suspends
    rw [callEvent_eq collection effective] at booked
    have change := deployment.change effective
    have step := effective_catalogue deployment.address_ne_zero registry effective
    rw [recorded] at booked ⊢
    exact ⟨change.registry registry, step.mintsAccounted booked tracked,
      keeps _ _ _ _ change registry tracked booked holds⟩

/-- The mint calls of every collection are accounted for in every reachable state. So what calls
returned and what is stored agree in all of them. -/
theorem mintsTracked : deployment.MintsTracked collection (deployment.history moves)
    (deployment.world moves).catalogue :=
  (deployment.mint_invariant moves collection (fun _ _ => True) trivial
    fun _ _ _ _ _ _ _ _ _ => trivial).1

/-- No mint of the collection is left to finish. Mints of other collections may still be in
progress. -/
def Minted : Prop :=
  ∀ tokenId tokenURI,
    Pending.mint collection tokenId tokenURI ∉ (deployment.run moves).current.pending

/-- When every call has returned, so has every mint. There is nothing left to finish at all then. -/
theorem minted_of_returned (returned : (deployment.run moves).current.pending = []) :
    deployment.Minted moves collection := by
  intro tokenId tokenURI
  rw [returned]
  exact List.not_mem_nil

/-- If no mint of a collection is left to finish, none is in progress. What is in progress and
what is left to finish are in step with each other. -/
theorem openMints_eq_nil (minted : deployment.Minted moves collection) :
    openMints deployment.address collection (deployment.history moves) = [] := by
  rw [openMints, (deployment.trace moves).frames_filterMap
    fun _ _ suspends => mintCall_suspends suspends, List.filterMap_eq_nil_iff]
  intro pending member
  cases pending with
  | mint given tokenId tokenURI =>
    have other : given ≠ collection := by
      rintro rfl
      exact minted tokenId tokenURI member
    simp [Pending.minting, other]
  | safeTransferFrom => rfl
  | outsideCall => rfl

variable {collection : Address} {s : NFTCollection}

/-- In every reachable state the mint calls of a collection account for what it says of itself.
This is the invariant that supply, numbers and URIs are read off. -/
theorem accounted (found : (deployment.world moves).deployed collection = some s) :
    Accounted (openMints deployment.address collection (deployment.history moves))
      (completedMints deployment.address collection (deployment.history moves)) s.issue :=
  (deployment.mintsTracked moves collection).accounted s.issue (issues_eq found)

/-- The supply is recorded in the marketplace, in the collection, and in the number of tokens that
exist. The three agree whenever no mint is in progress. A mint is in progress from the call to its
end, callbacks included; in between the marketplace lags behind. -/
theorem supply_mirrored (collection : Address) (s : NFTCollection)
    (found : (deployment.world moves).deployed collection = some s)
    (minted : deployment.Minted moves collection) :
    ((deployment.world moves).marketplace.collections collection).totalSupply = s.totalSupply ∧
      {tokenId | (deployment.world moves).ownerOf collection tokenId ≠ 0}.ncard =
        s.totalSupply.toNat := by
  constructor
  · exact (deployment.mintsTracked moves collection).reported s.issue (issues_eq found)
      (deployment.openMints_eq_nil moves collection minted)
  · have numbered := (deployment.accounted moves found).exact.numbered
    simp only [World.ownerOf, ownerIn, found, numbered]
    exact ncard_words s.totalSupply

/-- Account 14 is a contract that creates a collection and mints a token to itself; when
it is called back it mints another. -/
def nestedMints : List (Move Action) :=
  [.act (.setAccount 14 ⟨true, true⟩),
    .act (.marketplace ⟨14, 0⟩ (.createCollection (bytes "Apes") (bytes "APE") [] (bytes "Art") 100)),
    .act (.collection 14 100 (.mint 14 (bytes "ipfs://first"))),
    .act (.collection 14 100 (.mint 14 (bytes "ipfs://second"))),
    .finish, .finish]

/-- A contract minted from within a callback. Once all calls have returned, collection and
marketplace tell the same supply, which is the number of tokens that exist. -/
theorem nestedMints_mirrored :
    ∃ s, (sample.world nestedMints).deployed 100 = some s ∧
      ((sample.world nestedMints).marketplace.collections 100).totalSupply = s.totalSupply ∧
      {tokenId | (sample.world nestedMints).ownerOf 100 tokenId ≠ 0}.ncard =
        s.totalSupply.toNat := by
  obtain ⟨s, found⟩ := Option.isSome_iff_exists.mp
    (by decide +kernel : ((sample.world nestedMints).deployed 100).isSome = true)
  have returned : (sample.run nestedMints).current.pending = [] := by decide +kernel
  have minted : sample.Minted nestedMints 100 := sample.minted_of_returned nestedMints 100 returned
  exact ⟨s, found, supply_mirrored sample nestedMints 100 s found minted⟩

end Deployment

end OpenBeach
