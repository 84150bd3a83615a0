import OpenBeach.NFTRequests

/-!
# Mints in any order

Whatever the order in which the requests take their steps, and whatever others mint in
between, every request that mints gets a token of its own, and every document tells of a
token that is on the chain. Which requests lose their documents depends on the numbers of
their tokens alone.
-/

namespace OpenBeach

open Services Schedules UniqueKeys Handlers NFTService

/-- The token of a number has a URI. -/
def Backend.Holds (state : Backend) (collection : Address) (number : Nat) (tokenURI : String) :
    Prop :=
  0 < number ∧ (state.minted collection)[number - 1]? = some tokenURI

/-- Nothing is taken back. -/
structure Backend.Grows (state after : Backend) : Prop where
  minted : ∀ collection, state.minted collection <+: after.minted collection
  rows : state.documents.rows <+: after.documents.rows

section Growth

variable {state after : Backend} {collection : Address} {number : Nat} {tokenURI : String}

/-- A token that is there stays there, under the same number and with the same URI. -/
theorem Backend.Holds.grows (holds : state.Holds collection number tokenURI)
    (grows : state.Grows after) : after.Holds collection number tokenURI := by
  obtain ⟨rest, extended⟩ := grows.minted collection
  refine ⟨holds.1, ?_⟩
  rw [← extended]
  exact List.getElem?_append_left (List.getElem?_eq_some_iff.mp holds.2).1 ▸ holds.2

/-- The number of a token is at most how many there are. -/
theorem Backend.Holds.le_supply (holds : state.Holds collection number tokenURI) :
    number ≤ state.supply collection := by
  have below := (List.getElem?_eq_some_iff.mp holds.2).1
  have positive := holds.1
  rw [Backend.supply]
  omega

/-- Collections do not lose tokens. -/
theorem Backend.Grows.supply (grows : state.Grows after) (collection : Address) :
    state.supply collection ≤ after.supply collection :=
  (grows.minted collection).length_le

/-- The token that is minted last. -/
theorem Backend.holds_push (state : Backend) (collection : Address) (tokenURI : String) :
    (state.push collection tokenURI).Holds collection (state.supply collection + 1) tokenURI := by
  refine ⟨Nat.succ_pos _, ?_⟩
  simp [Backend.push, Backend.supply]

/-- A mint puts one URI behind those of its collection, and no other collection is concerned. -/
theorem Backend.minted_push (state : Backend) (collection other : Address) (tokenURI : String) :
    (state.push collection tokenURI).minted other =
      state.minted other ++ if collection = other then [tokenURI] else [] := by
  by_cases same : collection = other
  · subst same
    simp [Backend.push]
  · have apart : other ≠ collection := fun equal => same equal.symm
    simp [Backend.push, same, apart]

end Growth

namespace NFTController

/-- A request that mints gets past its checks, and its transaction succeeds. -/
structure Mints (ethers : Ethers) (request : NFTRequest) (call : Call) (prepared : Prepared)
    (transactionHash : String) : Prop where
  admitted : callOf request = .ok call
  prepares : prepare ethers call.collectionAddress call.nftData call.creatorAddress call.replies =
    .ok prepared
  succeeds : call.replies.mint prepared.tokenURI = .ok transactionHash

/-- The collection and the URI of the token that a request mints. -/
def mintedBy (ethers : Ethers) (request : NFTRequest) : Option (Address × String) :=
  match callOf request with
  | .error _ => none
  | .ok call =>
    match prepare ethers call.collectionAddress call.nftData call.creatorAddress call.replies with
    | .error _ => none
    | .ok prepared =>
      match call.replies.mint prepared.tokenURI with
      | .error _ => none
      | .ok _ => some (prepared.collectionContract, prepared.tokenURI)

/-- The document of a call is not saved: the schema does not take it, its number cannot be read,
the database fails, or it has a document of this number. -/
def Unrecordable (mongoose : Mongoose) (call : Call) (backend : Backend) (number : Nat) : Prop :=
  ¬ (Storable mongoose call.nftData ∧ number ≤ MAX_SAFE_INTEGER ∧
    call.replies.database = .ok ()) ∨
  number ∈ backend.documents.rows.map NFT.tokenId

/-- What the result of a call says is on the chain, in the database and in the metadata that was
uploaded. -/
structure Recorded (mongoose : Mongoose) (call : Call) (prepared : Prepared) (backend : Backend)
    (result : MintResult) : Prop where
  storable : Storable mongoose call.nftData
  safe : result.tokenId ≤ MAX_SAFE_INTEGER
  reachable : call.replies.database = .ok ()
  stored : result.nft ∈ backend.documents.rows
  number : result.nft.tokenId = result.tokenId
  tokenURI : result.nft.tokenURI = prepared.tokenURI
  collection : result.nft.collectionAddress = call.collectionAddress
  metadata : result.nft.metadata = prepared.metadata

/-- What is known of a request, by how far it got. -/
inductive Sound (mongoose : Mongoose) (ethers : Ethers) (request : NFTRequest) (backend : Backend) :
    Stage → Prop where
  | idle : Sound mongoose ethers request backend .idle
  | minting (call : Call) (prepared : Prepared) (admitted : callOf request = .ok call)
      (prepares : prepare ethers call.collectionAddress call.nftData call.creatorAddress
        call.replies = .ok prepared) :
      Sound mongoose ethers request backend (.minting call prepared)
  | saving (call : Call) (prepared : Prepared) (transactionHash : String) (tokenId : Nat)
      (mints : Mints ethers request call prepared transactionHash)
      (safe : tokenId ≤ MAX_SAFE_INTEGER)
      (holds : backend.Holds prepared.collectionContract tokenId prepared.tokenURI) :
      Sound mongoose ethers request backend (.saving call prepared transactionHash tokenId)
  | refused (answer : Answer MintResult) (refused : callOf request = .error answer) :
      Sound mongoose ethers request backend (.answered answer none)
  | unminted (call : Call) (message : String) (admitted : callOf request = .ok call)
      (unminted : ∀ prepared transactionHash,
        ¬ Mints ethers request call prepared transactionHash) :
      Sound mongoose ethers request backend (.answered (failed message) none)
  | lost (call : Call) (prepared : Prepared) (transactionHash : String) (number : Nat)
      (message : String) (mints : Mints ethers request call prepared transactionHash)
      (holds : backend.Holds prepared.collectionContract number prepared.tokenURI)
      (unrecordable : Unrecordable mongoose call backend number) :
      Sound mongoose ethers request backend
        (.answered (failed message) (some (prepared.collectionContract, number)))
  | recorded (call : Call) (prepared : Prepared) (transactionHash : String) (nft : NFT)
      (mints : Mints ethers request call prepared transactionHash) (tokenId : Nat)
      (holds : backend.Holds prepared.collectionContract tokenId prepared.tokenURI)
      (recorded : Recorded mongoose call prepared backend
        ⟨true, tokenId, prepared.tokenURI, transactionHash, nft⟩) :
      Sound mongoose ethers request backend
        (.answered (.data 201 ⟨true, tokenId, prepared.tokenURI, transactionHash, nft⟩)
          (some (prepared.collectionContract, tokenId)))

/-- What a step of a request does, besides taking it to its next stage. -/
structure Turn (mongoose : Mongoose) (ethers : Ethers) (request : NFTRequest) (before : Backend)
    (old : Stage) (mined : Option (Address × String)) (outcome : Stage × Backend) : Prop where
  sound : Sound mongoose ethers request outcome.2 outcome.1
  minted : ∀ collection, outcome.2.minted collection = before.minted collection ++
    ((mined.filter fun token => token.1 = collection).map Prod.snd).toList
  rows : outcome.2.documents.rows = before.documents.rows ++ outcome.1.document.toList
  token : outcome.1.token = old.token ∨ old.token = none ∧
    ∃ collection, outcome.1.token = some (collection, before.supply collection + 1)
  given : outcome.1.token.isSome = (old.token.isSome || mined.isSome)

section Turns

variable {mongoose : Mongoose} {ethers : Ethers} {request : NFTRequest} {backend after : Backend}
  {stage : Stage}

/-- What is known of a request stays true of what has grown. -/
theorem Sound.grows (sound : Sound mongoose ethers request backend stage)
    (grows : backend.Grows after) : Sound mongoose ethers request after stage := by
  cases sound with
  | idle => exact .idle
  | minting call prepared admitted prepares => exact .minting call prepared admitted prepares
  | saving call prepared transactionHash tokenId mints safe holds =>
    exact .saving call prepared transactionHash tokenId mints safe (holds.grows grows)
  | refused answer refused => exact .refused answer refused
  | unminted call message admitted unminted => exact .unminted call message admitted unminted
  | lost call prepared transactionHash number message mints holds unrecordable =>
    refine .lost call prepared transactionHash number message mints (holds.grows grows) ?_
    exact unrecordable.imp_right fun held => (grows.rows.map NFT.tokenId).subset held
  | recorded call prepared transactionHash nft mints tokenId holds recorded =>
    exact .recorded call prepared transactionHash nft mints tokenId (holds.grows grows)
      { recorded with stored := grows.rows.subset recorded.stored }

/-- Arriving is a turn: checks and uploads leave chain and database as they are, and the request
waits for its mint, or it is over. -/
theorem turn_arrive :
    Turn mongoose ethers request backend .idle none (arrive ethers request, backend) := by
  unfold arrive
  cases admitted : callOf request with
  | error answer =>
    obtain ⟨status, text, rfl, _⟩ := callOf_error admitted
    exact ⟨.refused _ admitted, fun _ => (List.append_nil _).symm, (List.append_nil _).symm,
      .inl rfl, rfl⟩
  | ok call =>
    dsimp only
    cases prepares : prepare ethers call.collectionAddress call.nftData call.creatorAddress
        call.replies with
    | error message =>
      refine ⟨.unminted call message admitted ?_, fun _ => (List.append_nil _).symm,
        (List.append_nil _).symm, .inl rfl, rfl⟩
      intro prepared transactionHash mints
      have prepares := prepares.symm.trans mints.prepares
      cases prepares
    | ok prepared =>
      exact ⟨.minting call prepared admitted prepares, fun _ => (List.append_nil _).symm,
        (List.append_nil _).symm, .inl rfl, rfl⟩

/-- A mint takes the next number. -/
theorem exec_mint {collection : Address} {tokenURI : String} :
    exec (NFTService.mint collection tokenURI) backend =
      (.ok (backend.supply collection + 1), backend.push collection tokenURI) := by
  unfold NFTService.mint
  simp only [exec_bind, exec_get, exec_set, exec_pure]

/-- The mint is a turn. The token is there from then on, also if its number cannot be told as a
number of JavaScript and the request fails. -/
theorem turn_mine {call : Call} {prepared : Prepared} (admitted : callOf request = .ok call)
    (prepares : prepare ethers call.collectionAddress call.nftData call.creatorAddress
      call.replies = .ok prepared) :
    Turn mongoose ethers request backend (.minting call prepared) (mintedBy ethers request)
      (mine ethers call prepared backend) := by
  unfold mine mintedBy
  rw [admitted]
  dsimp only
  rw [prepares]
  dsimp only
  cases mined : call.replies.mint prepared.tokenURI with
  | error message =>
    refine ⟨.unminted call message admitted ?_, fun _ => (List.append_nil _).symm,
      (List.append_nil _).symm, .inl rfl, rfl⟩
    intro other transactionHash mints
    obtain rfl := Except.ok.inj (prepares.symm.trans mints.prepares)
    have mined := mined.symm.trans mints.succeeds
    cases mined
  | ok transactionHash =>
    have mints : Mints ethers request call prepared transactionHash := ⟨admitted, prepares, mined⟩
    have holds := backend.holds_push prepared.collectionContract prepared.tokenURI
    have grown : ∀ collection, (backend.push prepared.collectionContract prepared.tokenURI).minted
        collection = backend.minted collection ++ (((some (prepared.collectionContract,
          prepared.tokenURI)).filter fun token => token.1 = collection).map Prod.snd).toList := by
      intro collection
      rw [Backend.minted_push]
      by_cases same : prepared.collectionContract = collection <;>
        simp [same, Option.filter_some]
    rw [exec_mint]
    dsimp only
    unfold Ethers.toNumber
    by_cases safe : backend.supply prepared.collectionContract + 1 ≤ MAX_SAFE_INTEGER
    · rw [if_pos safe]
      exact ⟨.saving call prepared transactionHash _ mints safe holds, grown,
        (List.append_nil _).symm, .inr ⟨rfl, _, rfl⟩, rfl⟩
    · rw [if_neg safe]
      exact ⟨.lost call prepared transactionHash _ _ mints holds (.inl fun met => safe met.2.1),
        grown, (List.append_nil _).symm, .inr ⟨rfl, _, rfl⟩, rfl⟩

/-- Nothing is saved while the database fails. -/
theorem exec_save_unreachable {replies : Replies} {fields : NFTFields} {message : String}
    (unreachable : replies.database = .error message) :
    ∃ other, exec (NFTService.save mongoose replies fields) backend = (.error other, backend) := by
  unfold NFTService.save
  simp only [exec_bind, exec_lift, unreachable]
  cases NFTSchema.validate mongoose fields replies.now with
  | error other => exact ⟨other, rfl⟩
  | ok nft => exact ⟨message, rfl⟩

/-- Saving is a turn, and the last one. The token stays, whether or not its document is stored. -/
theorem turn_save {call : Call} {prepared : Prepared} {transactionHash : String} {tokenId : Nat}
    (mints : Mints ethers request call prepared transactionHash)
    (safe : tokenId ≤ MAX_SAFE_INTEGER)
    (holds : backend.Holds prepared.collectionContract tokenId prepared.tokenURI) :
    Turn mongoose ethers request backend (.saving call prepared transactionHash tokenId) none
      (save mongoose call prepared transactionHash tokenId backend) := by
  have stopped : ∀ message, Unrecordable mongoose call backend tokenId →
      Turn mongoose ethers request backend (.saving call prepared transactionHash tokenId) none
        (.answered (failed message) (some (prepared.collectionContract, tokenId)), backend) :=
    fun message unrecordable =>
      ⟨.lost call prepared transactionHash tokenId message mints holds unrecordable,
        fun _ => (List.append_nil _).symm, (List.append_nil _).symm, .inl rfl, rfl⟩
  obtain ⟨_, collectionAddress, creator, tokenURI⟩ := prepare_ok mints.prepares
  unfold save
  cases database : call.replies.database with
  | error message =>
    obtain ⟨other, refused⟩ := @exec_save_unreachable mongoose backend call.replies
      (fields call.collectionAddress call.nftData call.creatorAddress prepared tokenId) _ database
    rw [refused]
    exact stopped other (.inl fun met => by rw [database] at met; cases met.2.2)
  | ok reachable =>
    have schema (nft : NFT) := @validate_ok mongoose (fields call.collectionAddress call.nftData
      call.creatorAddress prepared tokenId) call.replies.now nft collectionAddress creator tokenURI
    rw [NFTService.exec_save database]
    cases valid : NFTSchema.validate mongoose (fields call.collectionAddress call.nftData
        call.creatorAddress prepared tokenId) call.replies.now with
    | error message =>
      refine stopped message (.inl ?_)
      rintro ⟨⟨⟨name, named⟩, description, described⟩, _⟩
      have taken := (schema _).mpr ⟨name, description, named, described, rfl⟩
      rw [valid] at taken
      cases taken
    | ok nft =>
      obtain ⟨name, description, named, described, shape⟩ := (schema nft).mp valid
      have sameTokenId : nft.tokenId = tokenId := congrArg NFT.tokenId shape
      dsimp only
      by_cases held : nft.tokenId ∈ backend.documents.rows.map NFT.tokenId
      · rw [Table.insert_held held]
        exact stopped _ (.inr (sameTokenId ▸ held))
      · obtain ⟨documents, inserted, rows⟩ := Table.insert_fresh held
        rw [inserted]
        have stored : nft ∈ documents.rows := by
          rw [rows]
          exact List.mem_append_right _ (List.mem_singleton_self _)
        refine ⟨.recorded call prepared transactionHash nft mints tokenId holds ?_,
          fun _ => (List.append_nil _).symm, rows, .inl rfl, rfl⟩
        exact ⟨⟨⟨name, named⟩, description, described⟩, safe, database, stored, sameTokenId,
          congrArg NFT.tokenURI shape, congrArg NFT.collectionAddress shape,
          congrArg NFT.metadata shape⟩

end Turns

section Events

variable {κ : Type} [DecidableEq κ]

/-- The token that an event mints. -/
def Event.mints (ethers : Ethers) (requests : κ → NFTRequest) : Event κ → Option (Address × String)
  | .mine key => mintedBy ethers (requests key)
  | .mintedElsewhere collection tokenURI => some (collection, tokenURI)
  | .arrive _ | .save _ => none

/-- The URIs of the tokens that some events mint in a collection, in their order. -/
def tokenURIs (ethers : Ethers) (requests : κ → NFTRequest) (collection : Address)
    (events : List (Event κ)) : List String :=
  events.filterMap fun event =>
    ((event.mints ethers requests).filter fun token => token.1 = collection).map Prod.snd

/-- The request an event is a step of. -/
def Event.key : Event κ → Option κ
  | .arrive key | .mine key | .save key => some key
  | .mintedElsewhere _ _ => none

/-- The request that an event ends at the latest. -/
def Event.ends : Event κ → Option κ
  | .save key => some key
  | .arrive _ | .mine _ | .mintedElsewhere _ _ => none

/-- The documents, as what requests were answered with. -/
def documents (κ : Type) : Journal Backend κ Stage (Event κ) NFT where
  log backend := backend.documents.rows
  ends := Event.ends
  done stage := stage.answer.isSome = true
  entry := Stage.document

/-- What an event does. -/
structure Effect (mongoose : Mongoose) (ethers : Ethers) (requests : κ → NFTRequest) (s : State κ)
    (event : Event κ) (next : State κ) : Prop where
  minted : ∀ collection, next.store.minted collection = s.store.minted collection ++
    (((event.mints ethers requests).filter fun token => token.1 = collection).map Prod.snd).toList
  saved : (documents κ).Effect s event next
  sound : ∀ key, Sound mongoose ethers (requests key) next.store (next.stage key)
  token : ∀ key, (next.stage key).token = (s.stage key).token ∨ (s.stage key).token = none ∧
    ∃ collection, (next.stage key).token = some (collection, s.store.supply collection + 1) ∧
      ∀ other, other ≠ key → (next.stage other).token = (s.stage other).token
  given : ∀ key, (next.stage key).token.isSome = true ↔ (s.stage key).token.isSome = true ∨
    event = .mine key ∧ (mintedBy ethers (requests key)).isSome = true

section Effects

variable {mongoose : Mongoose} {ethers : Ethers} {requests : κ → NFTRequest} {s next : State κ}
  {event : Event κ}

omit [DecidableEq κ] in
/-- Only the mint of a request mints for it. -/
theorem mints_iff {key : κ} (about : event.key = some key) :
    (event.mints ethers requests).isSome = true ↔
      event = .mine key ∧ (mintedBy ethers (requests key)).isSome = true := by
  cases event with
  | mine other =>
    obtain rfl := Option.some.inj about
    simp [Event.mints]
  | arrive other | save other => simp [Event.mints]
  | mintedElsewhere collection tokenURI => cases about

/-- A step of a request is a turn of it. -/
theorem Turn.effect {key : κ} {outcome : Stage × Backend}
    (turn : Turn mongoose ethers (requests key) s.store (s.stage key)
      (event.mints ethers requests) outcome)
    (sound : ∀ key, Sound mongoose ethers (requests key) s.store (s.stage key))
    (unanswered : (s.stage key).answer = none) (about : event.key = some key)
    (ending : event.ends = some key ∧ outcome.1.answer.isSome = true ∨
      event.ends = none ∧ outcome.1.document = none) :
    Effect mongoose ethers requests s event (s.enter key outcome) where
  minted := turn.minted
  saved := Journal.effect_enter (by simp [documents, unanswered]) turn.rows ending
  sound := by
    have grows : s.store.Grows outcome.2 :=
      ⟨fun collection => ⟨_, (turn.minted collection).symm⟩, ⟨_, turn.rows.symm⟩⟩
    exact @Shared.enter_known _ _ _ _ s key outcome
      (fun key backend stage => Sound mongoose ethers (requests key) backend stage)
      sound turn.sound fun _ _ known => known.grows grows
  token other := by
    by_cases same : other = key
    · subst same
      rw [Shared.enter_stage]
      refine turn.token.imp_right fun ⟨fresh, collection, minted⟩ => ⟨fresh, collection, minted, ?_⟩
      intro another apart
      rw [Shared.enter_stage_of_ne apart]
    · exact .inl (by rw [Shared.enter_stage_of_ne same])
  given other := by
    by_cases same : other = key
    · subst same
      rw [Shared.enter_stage, turn.given, Bool.or_eq_true, mints_iff about]
    · have elsewhere : event ≠ .mine other := by
        rintro rfl
        exact same (Option.some.inj about)
      simp [same, elsewhere]

/-- Nothing is saved up to the mint. -/
theorem document_arrive {request : NFTRequest} : (arrive ethers request).document = none := by
  unfold arrive
  cases admitted : callOf request with
  | error answer =>
    obtain ⟨status, text, rfl, _⟩ := callOf_error admitted
    rfl
  | ok call =>
    dsimp only
    split <;> rfl

/-- The mint is answered with no document yet. -/
theorem document_mine {call : Call} {prepared : Prepared} {backend : Backend} :
    (mine ethers call prepared backend).1.document = none := by
  unfold mine
  rw [exec_mint]
  cases call.replies.mint prepared.tokenURI with
  | error message => rfl
  | ok transactionHash =>
    dsimp only
    split <;> rfl

/-- Saving ends a request. -/
theorem save_answered {call : Call} {prepared : Prepared} {transactionHash : String} {tokenId : Nat}
    {backend : Backend} :
    (save mongoose call prepared transactionHash tokenId backend).1.answer.isSome = true := by
  unfold save
  dsimp only
  split <;> rfl

/-- The step lemma: every possible event has its effect. -/
theorem step_effect (sound : ∀ key, Sound mongoose ethers (requests key) s.store (s.stage key))
    (stepped : step mongoose ethers requests s event = some next) :
    Effect mongoose ethers requests s event next := by
  cases event with
  | arrive key =>
    simp only [step] at stepped
    split at stepped
    · next was =>
      cases stepped
      have turn := @turn_arrive mongoose ethers (requests key) s.store
      rw [← was] at turn
      exact turn.effect sound (by rw [was]; rfl) rfl (.inr ⟨rfl, document_arrive⟩)
    · cases stepped
  | mine key =>
    simp only [step] at stepped
    split at stepped
    · next call prepared was =>
      cases stepped
      have known := sound key
      rw [was] at known
      cases known with
      | minting _ _ admitted prepares =>
        have turn := @turn_mine mongoose ethers (requests key) s.store _ _ admitted prepares
        rw [← was] at turn
        exact turn.effect sound (by rw [was]; rfl) rfl (.inr ⟨rfl, document_mine⟩)
    · cases stepped
  | save key =>
    simp only [step] at stepped
    split at stepped
    · next call prepared transactionHash tokenId was =>
      cases stepped
      have known := sound key
      rw [was] at known
      cases known with
      | saving _ _ _ _ mints safe holds =>
        have turn := @turn_save mongoose ethers (requests key) _ _ _ _ _ mints safe holds
        rw [← was] at turn
        exact turn.effect sound (by rw [was]; rfl) rfl (.inl ⟨rfl, save_answered⟩)
    · cases stepped
  | mintedElsewhere collection tokenURI =>
    cases stepped
    have minted : ∀ other, (s.store.push collection tokenURI).minted other =
        s.store.minted other ++
          ((((Event.mintedElsewhere collection tokenURI).mints ethers requests).filter
            fun token => token.1 = other).map Prod.snd).toList := by
      intro other
      rw [Backend.minted_push]
      by_cases same : collection = other <;> simp [Event.mints, same, Option.filter_some]
    have grows : s.store.Grows (s.store.push collection tokenURI) :=
      ⟨fun other => ⟨_, (minted other).symm⟩, List.prefix_refl _⟩
    exact ⟨minted, Journal.effect_outside rfl rfl, fun key => (sound key).grows grows,
      fun key => .inl rfl, by simp⟩

end Effects

/-- What the requests and the others have done so far. -/
structure Account (mongoose : Mongoose) (ethers : Ethers) (requests : κ → NFTRequest)
    (start : Backend) (events : List (Event κ)) (s : State κ) : Prop where
  minted : ∀ collection, s.store.minted collection =
    start.minted collection ++ tokenURIs ethers requests collection events
  saved : (documents κ).Kept start events s
  sound : ∀ key, Sound mongoose ethers (requests key) s.store (s.stage key)
  later : ∀ key collection number, (s.stage key).token = some (collection, number) →
    start.supply collection < number
  own : ∀ first second token, (s.stage first).token = some token →
    (s.stage second).token = some token → first = second
  given : ∀ key, (s.stage key).token.isSome = true ↔
    .mine key ∈ events ∧ (mintedBy ethers (requests key)).isSome = true

section Runs

variable {mongoose : Mongoose} {ethers : Ethers} {requests : κ → NFTRequest} {start : Backend}
  {events : List (Event κ)} {s next : State κ} {event : Event κ}

omit [DecidableEq κ] in
/-- What a request mints can be told from the request alone, except for the number. -/
theorem Mints.mintedBy {request : NFTRequest} {call : Call} {prepared : Prepared}
    {transactionHash : String} (mints : Mints ethers request call prepared transactionHash) :
    mintedBy ethers request = some (prepared.collectionContract, prepared.tokenURI) := by
  unfold NFTController.mintedBy
  rw [mints.admitted]
  dsimp only
  rw [mints.prepares]
  dsimp only
  rw [mints.succeeds]

omit [DecidableEq κ] in
/-- The token of a request is on the chain. -/
theorem Sound.holds {request : NFTRequest} {backend : Backend} {stage : Stage}
    {collection : Address} {number : Nat} (sound : Sound mongoose ethers request backend stage)
    (token : stage.token = some (collection, number)) :
    ∃ tokenURI, mintedBy ethers request = some (collection, tokenURI) ∧
      backend.Holds collection number tokenURI := by
  cases sound with
  | idle | minting | refused | unminted => cases token
  | saving call prepared transactionHash tokenId mints safe holds =>
    cases token
    exact ⟨_, mints.mintedBy, holds⟩
  | lost call prepared transactionHash number message mints holds unrecordable =>
    cases token
    exact ⟨_, mints.mintedBy, holds⟩
  | recorded call prepared transactionHash nft mints tokenId holds recorded =>
    cases token
    exact ⟨_, mints.mintedBy, holds⟩

omit [DecidableEq κ] in
/-- Before the first event there is nothing to account for. -/
theorem account_initial (start : Backend) :
    Account mongoose ethers requests start [] (State.initial κ start) where
  minted collection := (List.append_nil _).symm
  saved := Journal.kept_initial fun _ => rfl
  sound key := .idle
  later key collection number token := by cases token
  own first second token first_token := by cases first_token
  given key := by simp [State.initial, Stage.token]

omit [DecidableEq κ] in
/-- A token that is minted now has a higher number than any before. -/
theorem Account.token_le (account : Account mongoose ethers requests start events s) {key : κ}
    {collection : Address} {number : Nat}
    (token : (s.stage key).token = some (collection, number)) :
    number ≤ s.store.supply collection := by
  obtain ⟨_, _, holds⟩ := (account.sound key).holds token
  exact holds.le_supply

omit [DecidableEq κ] in
/-- Every collection has at least the tokens it had at the start. -/
theorem Account.supply_le (account : Account mongoose ethers requests start events s)
    (collection : Address) : start.supply collection ≤ s.store.supply collection := by
  rw [Backend.supply, Backend.supply, account.minted, List.length_append]
  exact Nat.le_add_right _ _

omit [DecidableEq κ] in
/-- No token is given to two requests. -/
theorem Account.own_step (account : Account mongoose ethers requests start events s)
    (effect : Effect mongoose ethers requests s event next) :
    ∀ first second token, (next.stage first).token = some token →
      (next.stage second).token = some token → first = second := by
  have fresh : ∀ first second token, (next.stage first).token = some token →
      (s.stage first).token = none → (next.stage second).token = some token → first = second := by
    intro first second token firstToken none secondToken
    rcases effect.token first with same | ⟨_, collection, minted, others⟩
    · rw [same, none] at firstToken
      cases firstToken
    · by_contra apart
      rw [others second (Ne.symm apart)] at secondToken
      obtain rfl := Option.some.inj (minted.symm.trans firstToken)
      have bound := account.token_le secondToken
      omega
  intro first second token firstToken secondToken
  rcases effect.token first with same | ⟨none, _⟩
  · rcases effect.token second with sameSecond | ⟨none, _⟩
    · rw [same] at firstToken
      rw [sameSecond] at secondToken
      exact account.own first second token firstToken secondToken
    · exact (fresh second first token secondToken none firstToken).symm
  · exact fresh first second token firstToken none secondToken

omit [DecidableEq κ] in
/-- What requests have done is known after one more event, if it was known before. -/
theorem Account.step (account : Account mongoose ethers requests start events s)
    (effect : Effect mongoose ethers requests s event next) :
    Account mongoose ethers requests start (events ++ [event]) next where
  minted collection := by
    rw [effect.minted, account.minted, List.append_assoc, tokenURIs, tokenURIs,
      List.filterMap_append]
    cases told : ((event.mints ethers requests).filter fun token => token.1 = collection).map
      Prod.snd <;> simp [told]
  saved := account.saved.step effect.saved
  sound := effect.sound
  later key collection number token := by
    rcases effect.token key with same | ⟨_, other, minted, _⟩
    · exact account.later key collection number (same ▸ token)
    · obtain ⟨rfl, rfl⟩ := Prod.mk.inj (Option.some.inj (minted.symm.trans token))
      have grown := account.supply_le other
      omega
  own := account.own_step effect
  given key := by
    rw [effect.given, account.given, List.mem_append, List.mem_singleton, or_and_right,
      eq_comm (a := event)]

/-- The run lemma. -/
theorem account (ran : run (step mongoose ethers requests) (State.initial κ start) events = some s) :
    Account mongoose ethers requests start events s :=
  run_induction (account_initial start)
    (fun _ _ _ _ known stepped => known.step (step_effect known.sound stepped)) ran

end Runs

end Events

end NFTController

end OpenBeach
