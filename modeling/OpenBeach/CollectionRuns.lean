import OpenBeach.Minting

/-!
# Runs of a collection on its own

Anybody can deploy a collection, for any account as its marketplace. Whether a recipient
is called back is then up to the environment, and so is what the marketplace does with a
report: from the collection's side a report is a call between others that starts where
the mint ends. An `outsideCall` around a mint stands for a report that calls the
collection again, or that fails and takes the mint with it.
-/

namespace OpenBeach

open Function Mappings NestedCalls

namespace NFTCollection

/-- One thing that can happen to a collection. Whether the recipient is called back is part of it,
since its code is not known here. -/
inductive Act where
  | call (sender : Address) (call : Call) (calledBack : Bool) : Act
  | outsideCall : Act
deriving DecidableEq

/-- What remains of an interrupted call. The report to the marketplace has no place of its own in
it. -/
inductive Rest where
  | mint (newTokenId : UInt256) (tokenURI : Bytes) : Rest
  | safeTransferFrom : Rest
  | outsideCall : Rest
deriving DecidableEq

/-- Finish an interrupted call. Only a mint has anything left to do, which is to store its URI. -/
def resumeRest : Rest → NFTCollection → Except Revert NFTCollection
  | .mint newTokenId tokenURI, s => .ok (s.setTokenURI newTokenId tokenURI)
  | .safeTransferFrom, s => .ok s
  | .outsideCall, s => .ok s

/-- Call the recipient back, or go on. The choice is made by the environment, call by call. -/
def callBack (calledBack : Bool) (rest : Rest) (s : NFTCollection) :
    Except Revert (NFTCollection × Option Rest) :=
  if calledBack = true then .ok (s, some rest)
  else do
    let s ← resumeRest rest s
    pure (s, none)

/-- A call that cannot be interrupted. It leaves nothing to finish. -/
def uninterrupted (result : Except Revert NFTCollection) :
    Except Revert (NFTCollection × Option Rest) := do
  let s ← result
  pure (s, none)

/-- Calls have a sender. The zero address cannot send any. -/
def executeAct (action : Act) (s : NFTCollection) : Except Revert (NFTCollection × Option Rest) :=
  match action with
  | .outsideCall => .ok (s, some .outsideCall)
  | .call sender call calledBack => do
    ensure (sender ≠ 0) .notAnOutsideAccount
    match call with
    | .mint recipient tokenURI => do
      let (newTokenId, s) ← beginMint sender recipient s
      callBack calledBack (.mint newTokenId tokenURI) s
    | .safeTransferFrom source target tokenId => do
      let s ← transferFrom sender source target tokenId s
      callBack calledBack .safeTransferFrom s
    | .approve target tokenId => uninterrupted (approve sender target tokenId s)
    | .setApprovalForAll operator approved =>
      uninterrupted (setApprovalForAll sender operator approved s)
    | .transferFrom source target tokenId =>
      uninterrupted (transferFrom sender source target tokenId s)
    | .transferOwnership newOwner => uninterrupted (transferOwnership sender newOwner s)
    | .renounceOwnership => uninterrupted (renounceOwnership sender s)

/-- A collection as a system of nested calls. Nothing has to wait until all calls have returned. -/
def system : Semantics NFTCollection Act Rest Revert where
  execute := executeAct
  resume := resumeRest
  outermost _ := false

/-- What is recorded of a step: the storage before it, and what ran. -/
abbrev SystemReceipt := Receipt NFTCollection Act Rest

/-- The identifier that a mint call gives its token, and the URI it was called with. The
identifier is read off the storage that the call found. -/
def mintCalled (receipt : SystemReceipt) : Option (UInt256 × Bytes) :=
  match receipt.event with
  | .executed (.call sender (.mint recipient tokenURI) _) =>
    (receipt.before.beginMint sender recipient).toOption.map fun begun => (begun.1, tokenURI)
  | _ => none

/-- The mint that is left to finish. Other interrupted calls mint nothing. -/
def Rest.minting : Rest → Option (UInt256 × Bytes)
  | .mint newTokenId tokenURI => some (newTokenId, tokenURI)
  | _ => none

/-- What an event does to what the collection says of itself. Approvals and transfers do nothing
to it. -/
def issueEvent (receipt : SystemReceipt) : Option IssueEvent :=
  match receipt.event with
  | .executed (.call _ (.transferOwnership newOwner) _) => some (.handed newOwner)
  | .executed (.call _ .renounceOwnership _) => some (.handed 0)
  | _ => (callEvent system mintCalled Rest.minting receipt).map .minting

section Steps

variable {s after : NFTCollection} {continuation : Option Rest}

/-- A recipient that is called back stops the call where it is; otherwise the rest of the call
runs at once. -/
theorem callBack_ok {calledBack : Bool} {rest : Rest} :
    callBack calledBack rest s = .ok (after, continuation) ↔
      calledBack = true ∧ after = s ∧ continuation = some rest ∨
        calledBack = false ∧ resumeRest rest s = .ok after ∧ continuation = none := by
  cases calledBack with
  | true => simp [callBack, eq_comm]
  | false => simp [callBack]

/-- A call that cannot be interrupted leaves what its function leaves, and nothing to do. So its
effect is that of the function alone. -/
theorem uninterrupted_ok {result : Except Revert NFTCollection} :
    uninterrupted result = .ok (after, continuation) ↔
      result = .ok after ∧ continuation = none := by
  unfold uninterrupted
  simp only [bind_ok, pure_ok, Prod.mk.injEq]
  constructor
  · rintro ⟨_, ran, rfl, rfl⟩
    exact ⟨ran, rfl⟩
  · rintro ⟨ran, rfl⟩
    exact ⟨after, ran, rfl, rfl⟩

/-- The phases of mint calls are among the steps of the collection. Handovers are the other steps,
and have no phase. -/
theorem phase_issueEvent (receipt : SystemReceipt) :
    (issueEvent receipt).bind IssueEvent.phase =
      callEvent system mintCalled Rest.minting receipt := by
  have phase : ∀ event : Option (CallEvent (UInt256 × Bytes)),
      (event.map IssueEvent.minting).bind IssueEvent.phase = event := by
    intro event
    cases event <;> rfl
  unfold issueEvent
  split
  · next seen => simp [callEvent, mintCalled, seen, IssueEvent.phase]
  · next seen => simp [callEvent, mintCalled, seen, IssueEvent.phase]
  · exact phase _

/-- A mint call creates its token, and stores the URI unless its recipient is called. In both
cases it is a step of what the collection says. -/
theorem mint_issue {sender recipient : Address} {tokenURI : Bytes} {calledBack : Bool}
    {newTokenId : UInt256} {minted : NFTCollection}
    (begun : s.beginMint sender recipient = .ok (newTokenId, minted))
    (left : callBack calledBack (.mint newTokenId tokenURI) minted = .ok (after, continuation))
    (interrupted : interrupted system ⟨s, .executed (.call sender (.mint recipient tokenURI)
      calledBack)⟩ = continuation) :
    IssueStep s.issue
      (issueEvent ⟨s, .executed (.call sender (.mint recipient tokenURI) calledBack)⟩)
      after.issue := by
  obtain ⟨next, fresh, issue⟩ := beginMint_issue begun
  have called : mintCalled ⟨s, .executed (.call sender (.mint recipient tokenURI) calledBack)⟩ =
      some (newTokenId, tokenURI) := by
    simp [mintCalled, begun, Except.toOption]
  simp only [issueEvent, callEvent, called, interrupted, Option.map_some]
  rcases callBack_ok.mp left with ⟨_, rfl, rfl⟩ | ⟨_, stored, rfl⟩
  · rw [issue]
    exact .begun newTokenId tokenURI next fresh
  · obtain rfl := Except.ok.inj stored
    rw [setTokenURI_issue, issue]
    exact .whole newTokenId tokenURI next fresh

/-- Nobody is approved for a token that does not exist, so no transfer creates one. Therefore
transfers say nothing new. -/
theorem transfer_issue {sender source target : Address} {tokenId : UInt256}
    (unapproved : s.Unapproved 0) (nonzero : sender ≠ 0)
    (transferred : transferFrom sender source target tokenId s = .ok after) :
    IssueStep s.issue none after.issue ∧ after.Unapproved 0 := by
  have same : after.issue = s.issue :=
    outside_transfer_issue unapproved nonzero nonzero transferred
  refine ⟨?_, (transferFrom_step nonzero nonzero transferred).unapproved unapproved⟩
  rw [same]
  exact .idle

/-- The projection: every call makes its step of what the collection says. Nobody is approved for
absent tokens before and after, which the next call needs. -/
theorem executeAct_issue {action : Act} (unapproved : s.Unapproved 0)
    (ran : executeAct action s = .ok (after, continuation)) :
    IssueStep s.issue (issueEvent ⟨s, .executed action⟩) after.issue ∧ after.Unapproved 0 := by
  have left : interrupted system ⟨s, .executed action⟩ = continuation := interrupted_eq ran
  cases action with
  | outsideCall =>
    obtain ⟨rfl, _⟩ : s = after ∧ some Rest.outsideCall = continuation := by
      simpa [executeAct] using ran
    exact ⟨.idle, unapproved⟩
  | call sender call calledBack =>
    simp only [executeAct, bind_ok, ensure_ok, exists_const] at ran
    obtain ⟨nonzero, ran⟩ := ran
    cases call with
    | mint recipient tokenURI =>
      simp only [bind_ok, Prod.exists] at ran
      obtain ⟨newTokenId, minted, begun, ran⟩ := ran
      refine ⟨mint_issue begun ran left, ?_⟩
      have kept := beginMint_unapproved begun unapproved
      rcases callBack_ok.mp ran with ⟨_, rfl, _⟩ | ⟨_, stored, _⟩
      · exact kept
      · obtain rfl := Except.ok.inj stored
        exact ⟨kept.operators, kept.absentOperators, kept.tokens⟩
    | safeTransferFrom source target tokenId =>
      obtain ⟨moved, transferred, ran⟩ := bind_ok.mp ran
      obtain rfl : after = moved := by
        rcases callBack_ok.mp ran with ⟨_, same, _⟩ | ⟨_, resumed, _⟩
        · exact same
        · exact (Except.ok.inj resumed).symm
      exact transfer_issue unapproved nonzero transferred
    | transferFrom source target tokenId =>
      exact transfer_issue unapproved nonzero (uninterrupted_ok.mp ran).1
    | approve target tokenId =>
      obtain ⟨approved, _⟩ := uninterrupted_ok.mp ran
      refine ⟨?_, (approve_step nonzero nonzero approved).unapproved unapproved⟩
      obtain ⟨_, _, rfl⟩ := approve_ok.mp approved
      exact .idle
    | setApprovalForAll operator approved =>
      obtain ⟨granted, _⟩ := uninterrupted_ok.mp ran
      refine ⟨?_, (setApprovalForAll_step nonzero nonzero granted).unapproved unapproved⟩
      obtain ⟨_, rfl⟩ := setApprovalForAll_ok.mp granted
      exact .idle
    | transferOwnership newOwner =>
      obtain ⟨transferred, _⟩ := uninterrupted_ok.mp ran
      obtain ⟨_, _, rfl⟩ := transferOwnership_ok.mp transferred
      exact ⟨.handed newOwner, unapproved.operators, unapproved.absentOperators, unapproved.tokens⟩
    | renounceOwnership =>
      obtain ⟨renounced, _⟩ := uninterrupted_ok.mp ran
      obtain ⟨_, rfl⟩ := renounceOwnership_ok.mp renounced
      exact ⟨.handed 0, unapproved.operators, unapproved.absentOperators, unapproved.tokens⟩

/-- Every event that took effect, resumed calls included, makes its step of what the collection
says of itself. -/
theorem effective_issue {event : Event Act Rest} (unapproved : s.Unapproved 0)
    (effective : Effective system event s after) :
    IssueStep s.issue (issueEvent ⟨s, event⟩) after.issue ∧ after.Unapproved 0 := by
  cases event with
  | executed action =>
    obtain ⟨_, ran⟩ := effective
    exact executeAct_issue unapproved ran
  | resumed rest =>
    cases rest with
    | mint newTokenId tokenURI =>
      obtain rfl := Except.ok.inj effective
      exact ⟨.finished newTokenId tokenURI, unapproved.operators, unapproved.absentOperators,
        unapproved.tokens⟩
    | safeTransferFrom | outsideCall =>
      obtain rfl := Except.ok.inj effective
      exact ⟨.idle, unapproved⟩

/-- What an interrupted call is left with. It can be told from what is left which mint it was. -/
theorem executeAct_left {action : Act} {rest : Rest}
    (ran : executeAct action s = .ok (after, some rest)) :
    mintCalled ⟨s, .executed action⟩ = rest.minting := by
  cases action with
  | outsideCall =>
    obtain ⟨_, rfl⟩ : s = after ∧ Rest.outsideCall = rest := by simpa [executeAct] using ran
    rfl
  | call sender call calledBack =>
    simp only [executeAct, bind_ok, ensure_ok, exists_const] at ran
    obtain ⟨_, ran⟩ := ran
    cases call with
    | mint recipient tokenURI =>
      simp only [bind_ok, Prod.exists] at ran
      obtain ⟨newTokenId, minted, begun, ran⟩ := ran
      rcases callBack_ok.mp ran with ⟨_, _, left⟩ | ⟨_, _, impossible⟩
      · obtain rfl := Option.some.inj left
        simp [mintCalled, begun, Except.toOption, Rest.minting]
      · cases impossible
    | safeTransferFrom source target tokenId =>
      obtain ⟨_, _, ran⟩ := bind_ok.mp ran
      rcases callBack_ok.mp ran with ⟨_, _, left⟩ | ⟨_, _, impossible⟩
      · obtain rfl := Option.some.inj left
        rfl
      · cases impossible
    | approve | setApprovalForAll | transferFrom | transferOwnership | renounceOwnership =>
      cases (uninterrupted_ok.mp ran).2

/-- The call that left a mint to finish is the mint call of that identifier and URI. -/
theorem mintCalled_suspends {rest : Rest} {call : SystemReceipt}
    (suspends : Suspends system rest call) : mintCalled call = rest.minting := by
  obtain ⟨before, event⟩ := call
  cases event with
  | resumed => cases suspends
  | executed action =>
    simp only [Suspends, interrupted, system] at suspends
    split at suspends
    · next after left ran =>
      obtain rfl : left = some rest := suspends
      exact executeAct_left ran
    · cases suspends

end Steps

/-- A collection that was just deployed, by anybody. It need not be the marketplace's, so nothing
is assumed of that address. -/
structure Creation where
  name : Bytes
  symbol : Bytes
  baseURI : Bytes
  marketplaceAddress : Address
  category : Bytes
  initialOwner : Address
  storage : NFTCollection
  constructed : constructor name symbol baseURI marketplaceAddress category initialOwner =
    .ok storage

namespace Creation

variable (creation : Creation) (moves : List (Move Act))

/-- The configuration that some moves reach from the creation. The moves are those of any number
of callers. -/
def run : Config NFTCollection Act Rest :=
  (Config.initial creation.storage).run system moves

/-- The mint calls in progress and those that ran to their end. Those in progress come innermost
first. -/
def openMints : List (UInt256 × Bytes) :=
  (openCalls system (creation.run moves).current.history).filterMap mintCalled

/-- The mint calls that ran to their ends, by the numbers they gave and the URIs they were called
with. -/
def completedMints : List (UInt256 × Bytes) :=
  (completedCalls system (creation.run moves).current.history).filterMap mintCalled

/-- Every reachable state has a trace, so that inductions over runs are inductions over traces.
What was rolled back is not in it. -/
theorem trace : Trace system creation.storage (creation.run moves).current :=
  (reachable_trace ⟨moves, rfl⟩).1

/-- The mint calls are accounted for in every reachable state. Proof: by induction on the trace,
one event at a time. -/
theorem accounted : Accounted (creation.openMints moves) (creation.completedMints moves)
    (creation.run moves).current.state.issue := by
  have trace := creation.trace moves
  simp only [openMints, completedMints]
  generalize (creation.run moves).current = snapshot at trace ⊢
  suffices both : snapshot.state.Unapproved 0 ∧
      Accounted ((openCalls system snapshot.history).filterMap mintCalled)
        ((completedCalls system snapshot.history).filterMap mintCalled) snapshot.state.issue
    from both.2
  induction trace with
  | start =>
    have unapproved : creation.storage.Unapproved 0 := constructor_unapproved creation.constructed
    obtain ⟨_, storage⟩ := constructor_ok.mp creation.constructed
    have blank : creation.storage.issue =
        ⟨creation.initialOwner, 0, fun _ => false, fun _ => []⟩ := by
      rw [storage]
      simp [issue]
    refine ⟨unapproved, ?_⟩
    change Accounted [] [] creation.storage.issue
    rw [blank]
    exact .created creation.initialOwner
  | advance trace advanced inductionHypothesis =>
    obtain ⟨unapproved, accounted⟩ := inductionHypothesis
    obtain ⟨event, recorded, effective, booked⟩ := trace.booked advanced
      fun _ _ suspends => mintCalled_suspends suspends
    obtain ⟨step, kept⟩ := effective_issue unapproved effective
    rw [← phase_issueEvent] at booked
    exact ⟨kept, step.accounted booked accounted⟩

/-- No mint is left to finish. Other calls may still be in progress. -/
def Minted : Prop :=
  ∀ tokenId tokenURI, Rest.mint tokenId tokenURI ∉ (creation.run moves).current.pending

/-- If no mint is left to finish, no mint call is in progress. What is in progress and what is
left to finish are in step with each other. -/
theorem openMints_eq_nil (minted : creation.Minted moves) : creation.openMints moves = [] := by
  rw [openMints, (creation.trace moves).frames_filterMap
    fun _ _ suspends => mintCalled_suspends suspends, List.filterMap_eq_nil_iff]
  intro rest member
  cases rest with
  | mint tokenId tokenURI => exact absurd member (minted tokenId tokenURI)
  | safeTransferFrom => rfl
  | outsideCall => rfl

end Creation

end NFTCollection

/-- Every mint call that succeeds returns an identifier of its own, whose URI is the one it was
called with from then on. The tokens that exist are numbered from one up to the supply, and once
no mint is in progress each of them was returned by a call. This holds of any collection on its
own, and of those in a run of the marketplace. Mints may be nested in the callbacks of others and
may be rolled back; the proof accounts for open and completed calls alike, so their order does not
matter. -/
theorem mints_numbered :
    (∀ (creation : NFTCollection.Creation) (moves : List (Move NFTCollection.Act)),
      (creation.run moves).current.state.MintsExact (creation.completedMints moves) ∧
        (creation.Minted moves →
          ∀ tokenId, (creation.run moves).current.state.owners tokenId ≠ 0 →
            ∃ tokenURI, (tokenId, tokenURI) ∈ creation.completedMints moves)) ∧
    ∀ (deployment : Deployment) (moves : List (Move Action)) (collection : Address)
      (s : NFTCollection), (deployment.world moves).deployed collection = some s →
        s.MintsExact (completedMints deployment.address collection (deployment.history moves)) ∧
          (deployment.Minted moves collection →
            ∀ tokenId, s.owners tokenId ≠ 0 → ∃ tokenURI, (tokenId, tokenURI) ∈
              completedMints deployment.address collection (deployment.history moves)) := by
  constructor
  · intro creation moves
    have accounted := creation.accounted moves
    refine ⟨accounted.exact, ?_⟩
    intro minted tokenId present
    rw [creation.openMints_eq_nil moves minted] at accounted
    exact accounted.returned present
  · intro deployment moves collection s found
    have accounted := deployment.accounted moves found
    refine ⟨accounted.exact, ?_⟩
    intro minted tokenId present
    rw [deployment.openMints_eq_nil moves collection minted] at accounted
    exact accounted.returned present

/-- A contract's mint of its first token, called back to mint its second. -/
example :
    completedMints Deployment.sample.address 100
        (Deployment.sample.history Deployment.nestedMints) =
      [(1, bytes "ipfs://first"), (2, bytes "ipfs://second")] := by
  decide +kernel

end OpenBeach
