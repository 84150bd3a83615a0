import OpenBeach.Chain

/-!
# What the collection functions do

One law for each function of a collection: when it completes, and the storage it
leaves. Transfers and mints share the reassignment of a token.

`TokenStep` is what all calls by accounts other than the marketplace have in
common, provided the marketplace never approved anybody: a token it holds stays
with it.
-/

namespace OpenBeach.NFTCollection

open Function Mappings

/-- Give a token a new owner; a token that had one loses its approval. This is what minting and
transferring have in common. -/
def reassign (s : NFTCollection) (tokenId : UInt256) (target : Address) : NFTCollection :=
  { s with
    owners := update s.owners tokenId target
    tokenApprovals :=
      if s.owners tokenId ≠ 0 then update s.tokenApprovals tokenId 0 else s.tokenApprovals }

/-- What `_update` does to a token: it is authorized unless the caller is zero, which stands for
no check, and it hands the token over with its approval cleared. -/
theorem updateToken_ok {target auth previousOwner : Address} {tokenId : UInt256}
    {s after : NFTCollection} :
    updateToken target tokenId auth s = .ok (previousOwner, after) ↔
      (auth ≠ 0 → s.isAuthorized (s.owners tokenId) auth tokenId = true) ∧
        previousOwner = s.owners tokenId ∧ after = s.reassign tokenId target := by
  unfold updateToken checkAuthorized reassign
  by_cases existing : s.owners tokenId = 0 <;> by_cases authorised : auth = 0 <;>
    simp [existing, authorised]

/-- When a transfer succeeds, and what it leaves: the sender must be authorized, the named source
must hold the token, and afterwards the target does. -/
theorem transferFrom_ok {sender source target : Address} {tokenId : UInt256}
    {s after : NFTCollection} :
    transferFrom sender source target tokenId s = .ok after ↔
      target ≠ 0 ∧ (sender ≠ 0 → s.isAuthorized (s.owners tokenId) sender tokenId = true) ∧
        s.owners tokenId = source ∧ after = s.reassign tokenId target := by
  unfold transferFrom
  simp only [bind_ok, ensure_ok, pure_ok, Prod.exists, updateToken_ok]
  constructor
  · rintro ⟨_, given, owner, middle, ⟨authorised, rfl, rfl⟩, _, same, rfl⟩
    exact ⟨given, authorised, same, rfl⟩
  · rintro ⟨given, authorised, same, rfl⟩
    exact ⟨(), given, s.owners tokenId, _, ⟨authorised, rfl, rfl⟩, (), same, rfl⟩

/-- When an approval succeeds, and what it leaves. The token must exist. Approving zero takes an
approval back. -/
theorem approve_ok {sender target : Address} {tokenId : UInt256} {s after : NFTCollection} :
    approve sender target tokenId s = .ok after ↔
      s.owners tokenId ≠ 0 ∧
        (sender = 0 ∨ s.owners tokenId = sender ∨
          s.operatorApprovals (s.owners tokenId) sender = true) ∧
        after = { s with tokenApprovals := update s.tokenApprovals tokenId target } := by
  unfold approve requireOwned
  simp only [bind_ok, ensure_ok, pure_ok]
  constructor
  · rintro ⟨_, ⟨_, existing, rfl⟩, _, allowed, rfl⟩
    exact ⟨existing, allowed, rfl⟩
  · rintro ⟨existing, allowed, rfl⟩
    exact ⟨_, ⟨(), existing, rfl⟩, (), allowed, rfl⟩

/-- When operators can be named: always, except for the zero address. Nothing but the one flag is
written. -/
theorem setApprovalForAll_ok {sender operator : Address} {approved : Bool}
    {s after : NFTCollection} :
    setApprovalForAll sender operator approved s = .ok after ↔
      operator ≠ 0 ∧
        after = { s with
          operatorApprovals := update₂ s.operatorApprovals sender operator approved } := by
  unfold setApprovalForAll
  simp only [bind_ok, ensure_ok, pure_ok, exists_const]

/-- When a collection can be handed over: by its owner, to anybody but zero. The new owner is not
asked. -/
theorem transferOwnership_ok {sender newOwner : Address} {s after : NFTCollection} :
    transferOwnership sender newOwner s = .ok after ↔
      s.owner = sender ∧ newOwner ≠ 0 ∧ after = { s with owner := newOwner } :=
  Ownable.transferOwnership_ok

/-- When a collection can be given up: by its owner, and then it has none. Then nobody can mint
any more. -/
theorem renounceOwnership_ok {sender : Address} {s after : NFTCollection} :
    renounceOwnership sender s = .ok after ↔ s.owner = sender ∧ after = { s with owner := 0 } :=
  Ownable.renounceOwnership_ok

/-- The URI of a token that exists is the one that was stored. The base URI is not used, since the
hook for it is not overridden. -/
theorem tokenURI_ok {tokenId : UInt256} {uri : Bytes} {s : NFTCollection} :
    s.tokenURI tokenId = .ok uri ↔ s.owners tokenId ≠ 0 ∧ uri = s.tokenURIs tokenId := by
  unfold tokenURI requireOwned baseURIHook
  simp only [bind_ok, ensure_ok, pure_ok, exists_const, List.nil_append]
  constructor
  · rintro ⟨_, ⟨existing, rfl⟩, same⟩
    exact ⟨existing, same⟩
  · rintro ⟨existing, same⟩
    exact ⟨_, ⟨existing, rfl⟩, same⟩

/-- A token can be created for anybody but zero, if it does not exist yet. The approval of a token
that does not exist is empty, so nothing has to be cleared. -/
theorem mintToken_ok {recipient : Address} {tokenId : UInt256} {s after : NFTCollection} :
    mintToken recipient tokenId s = .ok after ↔
      recipient ≠ 0 ∧ s.owners tokenId = 0 ∧ after = s.reassign tokenId recipient := by
  unfold mintToken
  simp only [bind_ok, ensure_ok, pure_ok, Prod.exists, updateToken_ok]
  constructor
  · rintro ⟨_, given, owner, middle, ⟨_, rfl, rfl⟩, _, absent, rfl⟩
    exact ⟨given, absent, rfl⟩
  · rintro ⟨given, absent, rfl⟩
    exact ⟨(), given, s.owners tokenId, _, ⟨fun zero => absurd rfl zero, rfl, rfl⟩, (), absent, rfl⟩

/-- When a mint gets as far as its recipient: the owner calls, a number is left, and the token of
that number does not exist yet. -/
theorem beginMint_ok {sender recipient : Address} {newTokenId : UInt256}
    {s after : NFTCollection} :
    beginMint sender recipient s = .ok (newTokenId, after) ↔
      s.owner = sender ∧ newTokenId.toNat = s.tokenIds.toNat + 1 ∧ recipient ≠ 0 ∧
        s.owners newTokenId = 0 ∧
        after = { s with tokenIds := newTokenId }.reassign newTokenId recipient := by
  unfold beginMint checkOwner
  simp only [bind_ok, Ownable.checkOwner_ok, ownable, pure_ok, checkedAdd_ok, mintToken_ok,
    Prod.mk.injEq]
  constructor
  · rintro ⟨_, owner, identifier, next, middle, ⟨given, absent, rfl⟩, rfl, rfl⟩
    exact ⟨owner, next, given, absent, rfl⟩
  · rintro ⟨owner, next, given, absent, rfl⟩
    exact ⟨(), owner, newTokenId, next, _, ⟨given, absent, rfl⟩, rfl, rfl⟩

/-- Approvals the marketplace must not have given, nor an absent token carry. The marketplace
never approves anybody, so what it holds can leave it by its own hand only. -/
structure Unapproved (this : Address) (s : NFTCollection) : Prop where
  operators : ∀ operator, s.operatorApprovals this operator = false
  absentOperators : ∀ operator, s.operatorApprovals 0 operator = false
  tokens : ∀ tokenId, s.owners tokenId = this ∨ s.owners tokenId = 0 →
    s.tokenApprovals tokenId = 0

/-- Nobody but the marketplace is authorised for what it holds, nor anybody for a
token that does not exist. -/
theorem Unapproved.unauthorised {this : Address} {s : NFTCollection}
    (unapproved : s.Unapproved this) {sender : Address} (nonzero : sender ≠ 0)
    (other : sender ≠ this) (tokenId : UInt256)
    (authorised : s.isAuthorized (s.owners tokenId) sender tokenId = true) :
    s.owners tokenId ≠ this ∧ s.owners tokenId ≠ 0 := by
  have allowed : s.owners tokenId = sender ∨
      s.operatorApprovals (s.owners tokenId) sender = true ∨ s.tokenApprovals tokenId = sender := by
    simp only [isAuthorized, Bool.and_eq_true, Bool.or_eq_true, beq_iff_eq, or_assoc] at authorised
    exact authorised.2
  constructor
  · intro held
    rw [held, unapproved.operators, unapproved.tokens tokenId (.inl held)] at allowed
    rcases allowed with same | impossible | same
    · exact other same.symm
    · cases impossible
    · exact nonzero same.symm
  · intro absent
    rw [absent, unapproved.absentOperators, unapproved.tokens tokenId (.inr absent)] at allowed
    rcases allowed with same | impossible | same
    · exact nonzero same.symm
    · cases impossible
    · exact nonzero same.symm

/-- Reassigning a token keeps the approvals as required: an existing token loses its
own, an absent one has none. -/
theorem Unapproved.reassign {this : Address} {s : NFTCollection} (unapproved : s.Unapproved this)
    (tokenId : UInt256) (target : Address) : (s.reassign tokenId target).Unapproved this := by
  refine ⟨unapproved.operators, unapproved.absentOperators, ?_⟩
  intro tested held
  by_cases same : tested = tokenId
  · subst same
    by_cases existing : s.owners tested = 0
    · simpa [NFTCollection.reassign, existing] using unapproved.tokens tested (.inr existing)
    · simp [NFTCollection.reassign, existing]
  · have before : s.tokenApprovals tested = 0 :=
      unapproved.tokens tested (by simpa [NFTCollection.reassign, same] using held)
    by_cases existing : s.owners tokenId = 0 <;>
      simp [NFTCollection.reassign, existing, same, before]

/-- What a call by an account other than the marketplace may do to a collection. The marketplace
is not the caller, so what it holds stays with it. -/
structure TokenStep (this : Address) (s after : NFTCollection) : Prop where
  unapproved : s.Unapproved this → after.Unapproved this
  held : s.Unapproved this → ∀ tokenId, s.owners tokenId = this → after.owners tokenId = this
  marketplace : after.marketplaceAddress = s.marketplaceAddress

/-- Changes that concern neither owners nor approvals. Such are handovers of the collection, and
storing a URI. -/
theorem TokenStep.of_same {this : Address} {s after : NFTCollection}
    (owners : after.owners = s.owners) (tokenApprovals : after.tokenApprovals = s.tokenApprovals)
    (operatorApprovals : after.operatorApprovals = s.operatorApprovals)
    (marketplace : after.marketplaceAddress = s.marketplaceAddress) : TokenStep this s after := by
  refine ⟨?_, fun _ tokenId held => owners ▸ held, marketplace⟩
  rintro ⟨operators, absentOperators, tokens⟩
  refine ⟨?_, ?_, ?_⟩
  · rwa [operatorApprovals]
  · rwa [operatorApprovals]
  · rwa [owners, tokenApprovals]

/-- Composition: a mint labels a token after it created it. Nothing is assumed about the storage
in between. -/
theorem TokenStep.trans {this : Address} {s middle after : NFTCollection}
    (first : TokenStep this s middle) (second : TokenStep this middle after) :
    TokenStep this s after :=
  ⟨fun start => second.unapproved (first.unapproved start),
    fun start tokenId held => second.held (first.unapproved start) tokenId
      (first.held start tokenId held),
    second.marketplace.trans first.marketplace⟩

/-- A transfer by anybody else concerns a token the marketplace does not hold. Otherwise the
sender would have to be approved for it, which nobody is. -/
theorem transferFrom_step {this sender source target : Address} {tokenId : UInt256}
    {s after : NFTCollection} (nonzero : sender ≠ 0) (other : sender ≠ this)
    (completed : transferFrom sender source target tokenId s = .ok after) :
    TokenStep this s after := by
  obtain ⟨_, authorised, _, rfl⟩ := transferFrom_ok.mp completed
  refine ⟨fun unapproved => unapproved.reassign tokenId target, ?_, rfl⟩
  intro unapproved tested held
  have moved := (unapproved.unauthorised nonzero other tokenId (authorised nonzero)).1
  have different : tested ≠ tokenId := by
    rintro rfl
    exact moved held
  simpa [reassign, different] using held

/-- Approving concerns a token of the sender or of an owner who made it operator. Neither of them
is the marketplace, since it has named no operators. -/
theorem approve_step {this sender target : Address} {tokenId : UInt256}
    {s after : NFTCollection} (nonzero : sender ≠ 0) (other : sender ≠ this)
    (completed : approve sender target tokenId s = .ok after) : TokenStep this s after := by
  obtain ⟨existing, allowed, rfl⟩ := approve_ok.mp completed
  have allowed := allowed.resolve_left nonzero
  refine ⟨?_, fun _ _ held => held, rfl⟩
  rintro ⟨operators, absentOperators, tokens⟩
  refine ⟨operators, absentOperators, ?_⟩
  intro tested held
  have different : tested ≠ tokenId := by
    rintro rfl
    rcases held with held | absent
    · rw [held, operators] at allowed
      rcases allowed with same | impossible
      · exact other same.symm
      · cases impossible
    · exact existing absent
  simpa [different] using tokens tested held

/-- Naming operators moves no token, and gives operators to nobody but the sender, who is neither
the marketplace nor zero. -/
theorem setApprovalForAll_step {this sender operator : Address} {approved : Bool}
    {s after : NFTCollection} (nonzero : sender ≠ 0) (other : sender ≠ this)
    (completed : setApprovalForAll sender operator approved s = .ok after) :
    TokenStep this s after := by
  obtain ⟨_, rfl⟩ := setApprovalForAll_ok.mp completed
  refine ⟨?_, fun _ _ held => held, rfl⟩
  rintro ⟨operators, absentOperators, tokens⟩
  refine ⟨?_, ?_, tokens⟩
  · intro tested
    simp [update₂_apply, other.symm, operators]
  · intro tested
    simp [update₂_apply, nonzero.symm, absentOperators]

/-- Minting approves nobody. A token that was absent carried no approval, and still carries none. -/
theorem beginMint_unapproved {this sender recipient : Address} {newTokenId : UInt256}
    {s after : NFTCollection}
    (completed : beginMint sender recipient s = .ok (newTokenId, after))
    (unapproved : s.Unapproved this) : after.Unapproved this := by
  obtain ⟨_, _, _, _, rfl⟩ := beginMint_ok.mp completed
  have counted : ({ s with tokenIds := newTokenId } : NFTCollection).Unapproved this :=
    ⟨unapproved.operators, unapproved.absentOperators, unapproved.tokens⟩
  exact counted.reassign newTokenId recipient

/-- A new token gets an owner; no existing token changes hands. In particular, the marketplace
keeps what it holds. -/
theorem beginMint_step {this sender recipient : Address} {newTokenId : UInt256}
    {s after : NFTCollection} (nonzero : this ≠ 0)
    (completed : beginMint sender recipient s = .ok (newTokenId, after)) :
    TokenStep this s after := by
  have kept : s.Unapproved this → after.Unapproved this := beginMint_unapproved completed
  obtain ⟨_, _, _, absent, rfl⟩ := beginMint_ok.mp completed
  refine ⟨kept, ?_, rfl⟩
  intro _ tested held
  have different : tested ≠ newTokenId := by
    rintro rfl
    exact nonzero (held.symm.trans absent)
  simpa [reassign, different] using held

end OpenBeach.NFTCollection
