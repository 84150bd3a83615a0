import OpenBeach.Collections
import OpenBeach.Library.Sequences

/-!
# Consent

Whom a token belongs to, whom it is approved for and whom an account made its operator is
what the calls of a run told last. A token leaves an account only at the request of that
account, or of somebody whom it let: an operator it named, or an account the token was
approved for, by itself or by an operator, since it got the token. An account that calls
nothing, and let nobody, keeps what it has.
-/

namespace OpenBeach

open Function Mappings NestedCalls Sequences

namespace StorageEvent

/-- The account the call leaves the token with, if it moves the token. A mint leaves it with its
recipient, and a transfer with its target. -/
def holder (tokenId : UInt256) : StorageEvent → Option Address
  | .transferred _ _ _ target moved => if moved = tokenId then some target else none
  | .minted _ recipient created => if created = tokenId then some recipient else none
  | _ => none

/-- The account the call leaves the token approved for. A token that moves loses its approval. The
last such call decides, as in the storage. -/
def approval (tokenId : UInt256) : StorageEvent → Option Address
  | .approved _ target named => if named = tokenId then some target else none
  | .transferred _ _ _ _ moved => if moved = tokenId then some 0 else none
  | .minted _ _ created => if created = tokenId then some 0 else none
  | _ => none

/-- What the call says of an operator of an account. The last such call decides. Flags of other
accounts and operators are not touched. -/
def grant (account operator : Address) : StorageEvent → Option Bool
  | .operatorSet sender named granted =>
    if sender = account ∧ named = operator then some granted else none
  | _ => none

/-- The account that asked for the call. Writing a URI is a part of a mint and has no caller of
its own. -/
def caller : StorageEvent → Option Address
  | .transferred caller _ _ _ _ => some caller
  | .minted sender _ _ => some sender
  | .labelled _ _ => none
  | .approved sender _ _ => some sender
  | .operatorSet sender _ _ => some sender
  | .handed sender _ => some sender

end StorageEvent

/-- The account that made an event happen. -/
def caller : ChainEvent → Option Address
  | .executed (.marketplace msg _) => some msg.sender
  | .executed (.collection sender _ _) => some sender
  | _ => none

section Histories

variable (this collection : Address)

/-- What an event tells of a collection. -/
def told {δ : Type} (tells : StorageEvent → Option δ) (receipt : ChainReceipt) : Option δ :=
  (storageEvent this collection receipt).bind tells

/-- The account that got the token last. -/
def holderAfter (tokenId : UInt256) (history : List ChainReceipt) : Address :=
  (latest (told this collection (StorageEvent.holder tokenId)) history).getD 0

/-- The account the token was approved for since it moved last; zero if there is none. -/
def approvedAfter (tokenId : UInt256) (history : List ChainReceipt) : Address :=
  (latest (told this collection (StorageEvent.approval tokenId)) history).getD 0

/-- Whether an account made another its operator, and did not take it back. -/
def operatorAfter (account operator : Address) (history : List ChainReceipt) : Bool :=
  (latest (told this collection (StorageEvent.grant account operator)) history).getD false

/-- The storage is what the calls told last. -/
structure Recorded (history : List ChainReceipt) (s : NFTCollection) : Prop where
  holders : ∀ tokenId, s.owners tokenId = holderAfter this collection tokenId history
  approvals : ∀ tokenId, s.tokenApprovals tokenId = approvedAfter this collection tokenId history
  operators : ∀ account operator,
    s.operatorApprovals account operator = operatorAfter this collection account operator history

/-- The ground on which an account may have a token of a holder moved: the holder itself, an
operator of the holder, or an account the token stands approved for, by the holder or by
an account that was its operator then. -/
inductive Trail (history : List ChainReceipt) (holder : Address) (tokenId : UInt256) :
    Address → Prop where
  | own : Trail history holder tokenId holder
  | operator (account : Address)
      (granted : operatorAfter this collection holder account history = true) :
      Trail history holder tokenId account
  | approved (account approver : Address) (newer older : List ChainReceipt)
      (approval : ChainReceipt) (split : history = newer ++ approval :: older)
      (called : storageEvent this collection approval = some (.approved approver account tokenId))
      (standing : ∀ receipt ∈ newer,
        told this collection (StorageEvent.approval tokenId) receipt = none)
      (held : holderAfter this collection tokenId older = holder)
      (allowed : approver = holder ∨ operatorAfter this collection holder approver older = true) :
      Trail history holder tokenId account

end Histories

section Steps

variable {this collection : Address} {s after : NFTCollection} {receipt : ChainReceipt}
  {history : List ChainReceipt}

/-- What a call overwrites is what it told. -/
theorem getD_latest_cons {δ : Type} (tells : StorageEvent → Option δ) (otherwise : δ) :
    (latest (told this collection tells) (receipt :: history)).getD otherwise =
      ((storageEvent this collection receipt).bind tells).getD
        ((latest (told this collection tells) history).getD otherwise) := by
  rw [latest_cons, told]
  cases (storageEvent this collection receipt).bind tells <;> rfl

/-- The most recent event decides who holds a token, if it moved it. -/
theorem holderAfter_cons (tokenId : UInt256) :
    holderAfter this collection tokenId (receipt :: history) =
      ((storageEvent this collection receipt).bind (·.holder tokenId)).getD
        (holderAfter this collection tokenId history) :=
  getD_latest_cons _ _

/-- The most recent event decides who is approved for a token, if it says so. A transfer says that
nobody is. -/
theorem approvedAfter_cons (tokenId : UInt256) :
    approvedAfter this collection tokenId (receipt :: history) =
      ((storageEvent this collection receipt).bind (·.approval tokenId)).getD
        (approvedAfter this collection tokenId history) :=
  getD_latest_cons _ _

/-- The most recent event decides whether an account is an operator of another, if it is about the
two. -/
theorem operatorAfter_cons (account operator : Address) :
    operatorAfter this collection account operator (receipt :: history) =
      ((storageEvent this collection receipt).bind (·.grant account operator)).getD
        (operatorAfter this collection account operator history) :=
  getD_latest_cons _ _

/-- The owners after a token moved. -/
theorem owners_reassign (tokenId tested : UInt256) (target : Address) :
    (s.reassign tokenId target).owners tested =
      if tested = tokenId then target else s.owners tested := by
  by_cases same : tested = tokenId <;> simp [NFTCollection.reassign, same]

/-- The approvals after a token moved: an absent token had none to lose. -/
theorem tokenApprovals_reassign (unapproved : s.Unapproved this) (tokenId tested : UInt256)
    (target : Address) : (s.reassign tokenId target).tokenApprovals tested =
      if tested = tokenId then 0 else s.tokenApprovals tested := by
  by_cases existing : s.owners tokenId = 0
  · by_cases same : tested = tokenId
    · subst same
      simp [NFTCollection.reassign, existing, unapproved.tokens tested (.inr existing)]
    · simp [NFTCollection.reassign, existing, same]
  · by_cases same : tested = tokenId <;> simp [NFTCollection.reassign, existing, same]

/-- The step lemma for what the calls told. -/
theorem StorageStep.recorded (unapproved : s.Unapproved this)
    (step : StorageStep this s (storageEvent this collection receipt) after)
    (recorded : Recorded this collection history s) :
    Recorded this collection (receipt :: history) after := by
  have entry : ∀ call result, storageEvent this collection receipt = call →
      (∀ tokenId, result.owners tokenId = (call.bind (·.holder tokenId)).getD (s.owners tokenId)) →
      (∀ tokenId, result.tokenApprovals tokenId =
        (call.bind (·.approval tokenId)).getD (s.tokenApprovals tokenId)) →
      (∀ account operator, result.operatorApprovals account operator =
        (call.bind (·.grant account operator)).getD (s.operatorApprovals account operator)) →
      Recorded this collection (receipt :: history) result := by
    rintro _ result rfl holders approvals operators
    refine ⟨?_, ?_, ?_⟩
    · intro tokenId
      rw [holders, holderAfter_cons, recorded.holders]
    · intro tokenId
      rw [approvals, approvedAfter_cons, recorded.approvals]
    · intro account operator
      rw [operators, operatorAfter_cons, recorded.operators]
  generalize seen : storageEvent this collection receipt = call at step
  cases step with
  | idle => exact entry none s seen (fun _ => rfl) (fun _ => rfl) fun _ _ => rfl
  | transferred caller sender source target tokenId =>
    refine entry _ _ seen ?_ ?_ fun _ _ => rfl
    · intro tested
      rw [owners_reassign]
      by_cases same : tested = tokenId <;> simp [StorageEvent.holder, same, eq_comm]
    · intro tested
      rw [tokenApprovals_reassign unapproved]
      by_cases same : tested = tokenId <;> simp [StorageEvent.approval, same, eq_comm]
  | minted sender recipient tokenId tokenURIs =>
    have counted : ({ s with tokenIds := tokenId } : NFTCollection).Unapproved this :=
      ⟨unapproved.operators, unapproved.absentOperators, unapproved.tokens⟩
    refine entry _ _ seen ?_ ?_ fun _ _ => rfl
    · intro tested
      refine (owners_reassign tokenId tested recipient).trans ?_
      by_cases same : tested = tokenId <;> simp [StorageEvent.holder, same, eq_comm]
    · intro tested
      refine (tokenApprovals_reassign counted tokenId tested recipient).trans ?_
      by_cases same : tested = tokenId <;> simp [StorageEvent.approval, same, eq_comm]
  | labelled => exact entry _ _ seen (fun _ => rfl) (fun _ => rfl) fun _ _ => rfl
  | approved sender target tokenId =>
    refine entry _ _ seen (fun _ => rfl) ?_ fun _ _ => rfl
    intro tested
    by_cases same : tested = tokenId <;> simp [StorageEvent.approval, same, eq_comm]
  | operatorSet sender operator approved =>
    refine entry _ _ seen (fun _ => rfl) (fun _ => rfl) ?_
    intro account named
    refine (update₂_apply s.operatorApprovals sender account operator named approved).trans ?_
    by_cases same : account = sender ∧ named = operator
    · obtain ⟨rfl, rfl⟩ := same
      simp [StorageEvent.grant]
    · have different : ¬ (sender = account ∧ operator = named) :=
        fun equal => same ⟨equal.1.symm, equal.2.symm⟩
      simp [StorageEvent.grant, same, different]
  | handed => exact entry _ _ seen (fun _ => rfl) (fun _ => rfl) fun _ _ => rfl

/-- Nothing was told of a collection that was not called yet. -/
theorem recorded_created {w : World} {msg : Msg} {name symbol baseURI category : Bytes}
    (silent : ∀ receipt ∈ history, storageEvent this collection receipt = none)
    (created : NFTCollection.constructor name symbol baseURI this category msg.sender = .ok s) :
    Recorded this collection (⟨w, .executed (.marketplace msg
      (.createCollection name symbol baseURI category collection))⟩ :: history) s := by
  obtain ⟨_, rfl⟩ := NFTCollection.constructor_ok.mp created
  have nothing : ∀ {δ : Type} (tells : StorageEvent → Option δ),
      latest (told this collection tells) (⟨w, .executed (.marketplace msg
        (.createCollection name symbol baseURI category collection))⟩ :: history) = none := by
    intro δ tells
    refine List.findSome?_eq_none_iff.mpr (List.forall_mem_cons.mpr ⟨rfl, ?_⟩)
    intro receipt member
    rw [told, silent receipt member]
    rfl
  refine ⟨?_, ?_, ?_⟩ <;> intros <;> simp [holderAfter, approvedAfter, operatorAfter, nothing]

/-- A call that leaves a token approved for somebody is an approval of it. -/
theorem approval_eq_some {call : StorageEvent} {tokenId : UInt256} {account : Address}
    (nonzero : account ≠ 0) (approval : call.approval tokenId = some account) :
    ∃ approver, call = .approved approver account tokenId := by
  cases call with
  | approved sender target named =>
    obtain ⟨rfl, rfl⟩ : named = tokenId ∧ target = account := by
      simpa [StorageEvent.approval] using approval
    exact ⟨sender, rfl⟩
  | transferred | minted =>
    simp [StorageEvent.approval, eq_comm, nonzero] at approval
  | labelled | operatorSet | handed => cases approval

/-- A call that moves a token ends its approval. -/
theorem holder_eq_none {call : StorageEvent} {tokenId : UInt256}
    (silent : call.approval tokenId = none) : call.holder tokenId = none := by
  cases call with
  | transferred _ _ _ _ moved | minted _ _ moved =>
    have apart : moved ≠ tokenId := by
      rintro rfl
      simp [StorageEvent.approval] at silent
    simp [StorageEvent.holder, apart]
  | labelled | approved | operatorSet | handed => rfl

/-- A token whose approval stands has not moved. -/
theorem holderAfter_standing {tokenId : UInt256} {newer older : List ChainReceipt}
    (standing : ∀ receipt ∈ newer,
      told this collection (StorageEvent.approval tokenId) receipt = none) :
    holderAfter this collection tokenId (newer ++ older) =
      holderAfter this collection tokenId older := by
  induction newer with
  | nil => rfl
  | cons receipt rest inductionHypothesis =>
    rw [List.cons_append, holderAfter_cons,
      inductionHypothesis fun other member => standing other (List.mem_cons_of_mem _ member)]
    have silent := standing receipt List.mem_cons_self
    rw [told] at silent
    cases called : storageEvent this collection receipt with
    | none => rfl
    | some call =>
      rw [called, Option.bind_some] at silent
      rw [Option.bind_some, holder_eq_none silent]
      rfl

/-- Whom a collection would let move a token of an account. -/
def NFTCollection.Trusted (s : NFTCollection) (holder : Address) (tokenId : UInt256)
    (account : Address) : Prop :=
  account = holder ∨ s.tokenApprovals tokenId = account ∨ s.operatorApprovals holder account = true

/-- What a collection says of one token of an account, and of the operators of the account. -/
structure NFTCollection.Entrusts (s : NFTCollection) (tokenId : UInt256) (holder approved : Address)
    (operators : Address → Bool) : Prop where
  held : s.owners tokenId = holder
  approval : s.tokenApprovals tokenId = approved
  operator : s.operatorApprovals holder = operators

/-- The authorised account is trusted. -/
theorem NFTCollection.trusted_of_authorised {s : NFTCollection} {holder account : Address}
    {tokenId : UInt256} (authorised : s.isAuthorized holder account tokenId = true) :
    s.Trusted holder tokenId account := by
  simp only [NFTCollection.isAuthorized, Bool.and_eq_true, Bool.or_eq_true, beq_iff_eq]
    at authorised
  rcases authorised.2 with (same | operator) | approved
  · exact .inl same.symm
  · exact .inr (.inr operator)
  · exact .inr (.inl approved)

/-- The step lemma for a holder: only calls of accounts it trusts concern it. -/
theorem StorageStep.entrusts {call : Option StorageEvent} {tokenId : UInt256}
    {holder approved : Address} {operators : Address → Bool} (step : StorageStep this s call after)
    (nonzero : holder ≠ 0) (other : holder ≠ this)
    (entrusts : s.Entrusts tokenId holder approved operators)
    (untrusted : ∀ account, call.bind StorageEvent.caller = some account →
      ¬ s.Trusted holder tokenId account) :
    after.Entrusts tokenId holder approved operators := by
  obtain ⟨held, approval, operator⟩ := entrusts
  cases step with
  | idle | labelled | handed => exact ⟨held, approval, operator⟩
  | transferred caller sender source target moved _ made _ authorised owned =>
    have apart : tokenId ≠ moved := by
      rintro rfl
      have trusted := NFTCollection.trusted_of_authorised authorised
      rw [held] at trusted owned
      rcases made with ⟨rfl, _⟩ | ⟨_, rfl | rfl⟩
      · exact untrusted sender rfl trusted
      · exact untrusted source rfl (.inl owned.symm)
      · exact other owned
    refine ⟨?_, ?_, operator⟩
    · simpa [NFTCollection.reassign, apart] using held
    · by_cases existing : s.owners moved = 0 <;>
        simpa [NFTCollection.reassign, existing, apart] using approval
  | minted sender recipient moved tokenURIs _ _ _ _ absent =>
    have apart : tokenId ≠ moved := by
      rintro rfl
      exact nonzero (held.symm.trans absent)
    refine ⟨?_, ?_, operator⟩
    · simpa [NFTCollection.reassign, apart] using held
    · simpa [NFTCollection.reassign, absent] using approval
  | approved sender target moved _ existing allowed =>
    have apart : tokenId ≠ moved := by
      rintro rfl
      rw [held] at allowed
      rcases allowed with same | granted
      · exact untrusted sender rfl (.inl same.symm)
      · exact untrusted sender rfl (.inr (.inr granted))
    exact ⟨held, by simpa [apart] using approval, operator⟩
  | operatorSet sender named granted =>
    have apart : holder ≠ sender := by
      rintro rfl
      exact untrusted holder rfl (.inl rfl)
    refine ⟨held, approval, ?_⟩
    funext tested
    rw [← operator]
    simp [update₂_apply, apart]

/-- Who asked for a call of a collection made the event happen. -/
theorem storageEvent_caller {call : StorageEvent} {account : Address}
    (called : storageEvent this collection receipt = some call) (asked : call.caller = some account) :
    caller receipt.event = some account := by
  obtain ⟨before, event⟩ := receipt
  simp only [storageEvent] at called
  split at called
  · obtain ⟨_, rfl⟩ : _ ∧ _ = call := by simpa using called
    exact asked
  · obtain ⟨_, rfl⟩ : _ ∧ _ = call := by simpa using called
    exact asked
  · split at called
    · split at called
      · obtain ⟨_, _, rfl⟩ := Option.map_eq_some_iff.mp called
        exact asked
      all_goals
        obtain rfl := Option.some.inj called
        exact asked
    · cases called
  · obtain ⟨_, rfl⟩ : _ ∧ _ = call := by simpa using called
    cases asked
  · cases called

end Steps

namespace Deployment

variable (deployment : Deployment) (moves : List (Move Action)) (collection : Address)

/-- The owners, approvals and operators at every call of a run are what was told before. -/
theorem recorded_at (newer older : List ChainReceipt) (receipt : ChainReceipt)
    (recorded : deployment.history moves = newer ++ receipt :: older) (event : StorageEvent)
    (called : storageEvent deployment.address collection receipt = some event) :
    ∃ s after, Recorded deployment.address collection older s ∧
      StorageStep deployment.address s (some event) after := by
  obtain ⟨s, after, _, _, told, step⟩ := deployment.storage_at moves collection
    (Recorded deployment.address collection)
    (fun _ _ _ _ _ _ _ _ silent created => recorded_created silent created)
    (fun _ _ _ _ unapproved step recorded => step.recorded unapproved recorded)
    newer older receipt recorded event called
  exact ⟨s, after, told, step⟩

/-- Whoever a collection would let move a token has a trail to its holder. -/
theorem trail_of_authorised (newer older : List ChainReceipt)
    (recorded : deployment.history moves = newer ++ older) {s : NFTCollection}
    (told : Recorded deployment.address collection older s) {tokenId : UInt256} {account : Address}
    (nonzero : account ≠ 0) (authorised : s.isAuthorized (s.owners tokenId) account tokenId = true) :
    Trail deployment.address collection older (s.owners tokenId) tokenId account := by
  rcases NFTCollection.trusted_of_authorised authorised with rfl | approved | operator
  · exact .own
  · have standing : latest (OpenBeach.told deployment.address collection
        (StorageEvent.approval tokenId)) older = some account := by
      rw [told.approvals, approvedAfter, Option.getD_eq_iff] at approved
      exact approved.resolve_right fun absent => nonzero absent.2.symm
    obtain ⟨since, approval, before, rfl, tells, silent⟩ := latest_eq_some.mp standing
    obtain ⟨call, called, named⟩ := Option.bind_eq_some_iff.mp tells
    obtain ⟨approver, rfl⟩ := approval_eq_some nonzero named
    obtain ⟨earlier, _, toldEarlier, step⟩ := deployment.recorded_at moves collection
      (newer ++ since) before approval (by rw [recorded, List.append_assoc]) _ called
    have same : s.owners tokenId = earlier.owners tokenId := by
      rw [told.holders, toldEarlier.holders, holderAfter_standing silent, holderAfter_cons, called]
      rfl
    rw [same]
    cases step with
    | approved _ _ _ _ existing allowed =>
      refine .approved account approver since before approval rfl called silent
        (toldEarlier.holders tokenId).symm ?_
      exact allowed.imp Eq.symm fun granted => toldEarlier.operators _ _ ▸ granted
  · exact .operator account (told.operators _ _ ▸ operator)

/-- The ERC721 state of every collection is what its calls told last: a token belongs to the
account that got it last, stands approved for the account it was last approved for since, and an
account is an operator of another if that said so last. What was told last is read off the history
of the run, so the statement holds however the calls are nested in each other. -/
theorem approvals_recorded (s : NFTCollection)
    (found : (deployment.world moves).deployed collection = some s) :
    Recorded deployment.address collection (deployment.history moves) s :=
  deployment.storage_invariant moves collection (Recorded deployment.address collection)
    (fun _ _ _ _ _ _ _ _ silent created => recorded_created silent created)
    (fun _ _ _ _ unapproved step recorded => step.recorded unapproved recorded) s found

/-- Account 12 buys the token that 11 listed. -/
def soldListing : List (Move Action) :=
  sampleListing ++ [.act (.marketplace ⟨12, 1000⟩ (.createMarketSale 100 1))]

/-- Account 12 approves the token for 13, who takes it. -/
def takenByApproved : List (Move Action) :=
  soldListing ++
    [.act (.collection 12 100 (.approve 13 1)),
      .act (.collection 13 100 (.transferFrom 12 13 1))]

/-- A token that an approved account took: what the collection has stored is what the calls told,
and the token is with the one it was taken for. The transfer has cleared the approval it was made
by. -/
theorem approvals_recorded_taken :
    ∃ s, (sample.world takenByApproved).deployed 100 = some s ∧
      Recorded 1 100 (sample.history takenByApproved) s ∧ s.owners 1 = 13 := by
  obtain ⟨s, found⟩ := Option.isSome_iff_exists.mp
    (by decide +kernel : ((sample.world takenByApproved).deployed 100).isSome = true)
  have recorded := approvals_recorded sample takenByApproved 100 s found
  refine ⟨s, found, recorded, ?_⟩
  rw [recorded.holders]
  decide +kernel

/-- Every transfer was consented to. The token was of the account it was taken from, and whoever
moved it had a trail to that account. When the token was not the marketplace's, so had whoever
asked for the transfer, also when the marketplace made it. A trail is made of calls: an approval
of the holder or of an operator of the holder, or a grant of the holder, with nothing since that
took it back. -/
theorem transfers_consented (newer older : List ChainReceipt) (receipt : ChainReceipt)
    (recorded : deployment.history moves = newer ++ receipt :: older)
    (caller sender source target : Address) (tokenId : UInt256)
    (transferred : storageEvent deployment.address collection receipt =
      some (.transferred caller sender source target tokenId)) :
    holderAfter deployment.address collection tokenId older = source ∧
      Trail deployment.address collection older source tokenId sender ∧
      (source ≠ deployment.address →
        Trail deployment.address collection older source tokenId caller) := by
  obtain ⟨s, _, told, step⟩ := deployment.recorded_at moves collection newer older receipt recorded
    _ transferred
  cases step with
  | transferred _ _ _ _ _ nonzero made given authorised owned =>
    have trail := deployment.trail_of_authorised moves collection (newer ++ [receipt]) older
      (by simp [recorded]) told nonzero authorised
    rw [owned] at trail
    refine ⟨by rw [← told.holders, owned], trail, ?_⟩
    intro private_token
    rcases made with ⟨rfl, _⟩ | ⟨_, rfl | market⟩
    · exact trail
    · exact .own
    · exact absurd market private_token

/-- The ground for that transfer: the holder had approved the account that made it, and the
approval still stood. -/
theorem transfers_consented_taken :
    ∃ older, (sample.history takenByApproved).tail = older ∧
      holderAfter 1 100 1 older = 12 ∧ Trail 1 100 older 12 1 13 := by
  have split : sample.history takenByApproved =
      [] ++ (sample.history takenByApproved).head (by decide +kernel) ::
        (sample.history takenByApproved).tail :=
    (List.cons_head_tail _).symm
  obtain ⟨held, trail, _⟩ := transfers_consented sample takenByApproved 100 [] _ _ split
    13 13 12 13 1 (by decide +kernel)
  exact ⟨_, rfl, held, trail⟩

/-- A token stays with its holder whatever the others do, as long as neither the holder nor an
account it lets move the token makes a call that succeeds. Neither its approval nor the operators
of its holder change meanwhile. Whoever moves a token needs an authority that only those accounts
can give. -/
theorem idle_holder_keeps_token (later : List (Move Action))
    (continues : deployment.Continues moves later) (s : NFTCollection)
    (found : (deployment.world moves).deployed collection = some s) (tokenId : UInt256)
    (holder : Address) (held : s.owners tokenId = holder) (nonzero : holder ≠ 0)
    (other : holder ≠ deployment.address)
    (idle : ∀ receipt ∈ deployment.since moves later, ∀ account,
      caller receipt.event = some account → ¬ s.Trusted holder tokenId account) :
    ∃ after, (deployment.world (moves ++ later)).deployed collection = some after ∧
      after.Entrusts tokenId holder (s.tokenApprovals tokenId) (s.operatorApprovals holder) := by
  have kept := deployment.since_invariant moves later continues
    (fun newer w => (∀ receipt ∈ newer, ∀ account, caller receipt.event = some account →
        ¬ s.Trusted holder tokenId account) →
      ∃ after, w.deployed collection = some after ∧
        after.Entrusts tokenId holder (s.tokenApprovals tokenId) (s.operatorApprovals holder))
    (fun _ _ => ⟨s, found, held, rfl, rfl⟩)
    (by
      intro event newer w after effective registry inductionHypothesis idle
      obtain ⟨current, here, entrusts⟩ := inductionHypothesis
        fun receipt member => idle receipt (List.mem_cons_of_mem _ member)
      obtain ⟨result, left, step⟩ := effective_storage deployment.address_ne_zero effective here
      refine ⟨result, left, step.entrusts nonzero other entrusts ?_⟩
      intro account asked trusted
      obtain ⟨call, called, asker⟩ := Option.bind_eq_some_iff.mp asked
      have made := storageEvent_caller called asker
      refine idle ⟨w, event⟩ List.mem_cons_self account made ?_
      rcases trusted with same | approved | operator
      · exact .inl same
      · exact .inr (.inl (entrusts.approval ▸ approved))
      · exact .inr (.inr (entrusts.operator ▸ operator)))
  exact kept idle

/-- While 12 does nothing, others trade and try to take its token. -/
def othersActive : List (Move Action) :=
  [.act (.collection 13 100 (.transferFrom 12 13 1)),
    .act (.marketplace ⟨13, NFTMarketplace.initialListingFee⟩ (.createMarketItem 100 1 1)),
    .act (.collection 11 100 (.mint 13 (bytes "ipfs://second"))),
    .act (.collection 13 100 (.approve 11 2)),
    .act (.collection 11 100 (.transferFrom 13 11 2))]

/-- After a sale the others trade on, and the buyer, who does nothing, keeps the token. -/
theorem idle_holder_keeps_token_sold :
    ∃ after, (sample.world (soldListing ++ othersActive)).deployed 100 = some after ∧
      after.owners 1 = 12 := by
  have facts : ((sample.world soldListing).deployed 100).map (fun s => (s.owners 1,
      s.tokenApprovals 1, s.operatorApprovals 12 11, s.operatorApprovals 12 13)) =
      some (12, 0, false, false) := by
    decide +kernel
  obtain ⟨s, found, stored⟩ := Option.map_eq_some_iff.mp facts
  simp only [Prod.mk.injEq] at stored
  obtain ⟨held, approved, first, second⟩ := stored
  have callers : ∀ receipt ∈ sample.since soldListing othersActive,
      caller receipt.event = some 11 ∨ caller receipt.event = some 13 := by
    decide +kernel
  have idle : ∀ receipt ∈ sample.since soldListing othersActive, ∀ account,
      caller receipt.event = some account → ¬ s.Trusted 12 1 account := by
    intro receipt member account made
    rcases callers receipt member with same | same
    · obtain rfl := Option.some.inj (same.symm.trans made)
      simp only [NFTCollection.Trusted, approved, first]
      decide
    · obtain rfl := Option.some.inj (same.symm.trans made)
      simp only [NFTCollection.Trusted, approved, second]
      decide
  obtain ⟨after, here, entrusts⟩ := idle_holder_keeps_token sample soldListing 100 othersActive
    (.inl (by rfl)) s found 1 12 held (by decide) (by decide) idle
  exact ⟨after, here, entrusts.held⟩

end Deployment

end OpenBeach
