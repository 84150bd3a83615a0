import OpenBeach.CollectionService
import OpenBeach.Library.Handlers
import OpenBeach.Library.Schedules
import OpenBeach.Recordings

/-!
# Requests to mint

The controller checks a request before it attaches the uploaded file, so a file alone is not
enough. Then the image and the metadata are uploaded, the token is minted and its document
is saved. A request waits before the mint and before it saves; meanwhile other requests go
on, and others mint in the same collections.
-/

namespace OpenBeach

open Services UniqueKeys Handlers CollectionService NFTService

/-- `Array.isArray`. -/
def JsValue.isArray : JsValue → Bool
  | .array _ => true
  | _ => false

/-- `validateNFTInput`: the message about the first field that is amiss. -/
def validateNFTInput (nftData : JsValue) : Except String (Option String) := do
  let name ← property nftData "name"
  let image ← property nftData "image"
  let imageUrl ← property nftData "imageUrl"
  let attributes ← property nftData "attributes"
  if !name.truthy then pure (some "Name is required")
  else if !image.truthy && !imageUrl.truthy then pure (some "Image or imageUrl is required")
  else if attributes.truthy && !attributes.isArray then pure (some "Attributes must be an array")
  else pure none

/-- A request to mint: the collection of its path, its body, the address of the
authenticated user, the uploaded file, and what its call is told. -/
structure NFTRequest where
  collectionAddress : String
  body : JsValue
  user : Option String
  file : Option Bytes
  replies : Replies

/-- The fields of the body. -/
def NFTRequest.fields (request : NFTRequest) : List (String × JsValue) :=
  (CollectionValidator.objectFields request.body).getD []

/-- Mongoose, with the number that a path is cast to in a query, if it is one of a token. -/
structure NFTMongoose extends Mongoose where
  castNumber : String → Except String (Option Nat)
  castNumber_toString : ∀ number, number ≤ MAX_SAFE_INTEGER →
    castNumber (toString number) = .ok (some number)

namespace NFTController

/-- The data of a body. An uploaded file takes the place of the image. -/
def nftData (fields : List (String × JsValue)) (file : Option Bytes) : NFTData where
  image := (file.map JsValue.buffer).getD (lookupField fields "image")
  name := lookupField fields "name"
  description := lookupField fields "description"
  attributes := lookupField fields "attributes"
  external_url := lookupField fields "external_url"
  background_color := lookupField fields "background_color"
  animation_url := lookupField fields "animation_url"

/-- `mintNFT`, up to the call of the service. -/
def callOf (request : NFTRequest) : Except (Answer MintResult) Call :=
  match request.user with
  | none => .error (.message 500 "Cannot read properties of undefined (reading 'address')")
  | some creatorAddress =>
    match validateNFTInput request.body with
    | .error message => .error (.message 500 message)
    | .ok (some validationError) => .error (.message 400 validationError)
    | .ok none => .ok {
        collectionAddress := request.collectionAddress
        nftData := nftData request.fields request.file
        creatorAddress
        replies := request.replies }

/-- `mintNFT`, when nothing happens meanwhile. -/
def mintNFT (mongoose : Mongoose) (ethers : Ethers) (request : NFTRequest) (state : Backend) :
    Answer MintResult × Backend :=
  match callOf request with
  | .error answer => (answer, state)
  | .ok call =>
    match perform mongoose ethers call state with
    | (.ok result, after) => (.data 201 result, after)
    | (.error message, after) => (.message 500 message, after)

/-- `getNFTMetadata`. -/
def getNFTMetadata (mongoose : NFTMongoose) (state : Backend) (database : Except String Unit)
    (collectionAddress tokenId : String) : Answer NFT :=
  let failed := fun message => "Failed to get NFT metadata: " ++ message
  let found : Except String NFT := do
    match ← (mongoose.castNumber tokenId).mapError failed with
    | none =>
      database.mapError failed
      throw (failed "NFT not found")
    | some number => NFTService.getNFTMetadata state database collectionAddress number
  match found with
  | .ok nft => .data 200 nft
  | .error message => .message 404 message

/-- How far a request got, and what it knows by then. An answered request may have minted a
token, given by its collection and its number. -/
inductive Stage where
  | idle
  | minting (call : Call) (prepared : Prepared)
  | saving (call : Call) (prepared : Prepared) (transactionHash : String) (tokenId : Nat)
  | answered (answer : Answer MintResult) (minted : Option (Address × Nat))

/-- The token the request minted. -/
def Stage.token : Stage → Option (Address × Nat)
  | .idle | .minting _ _ => none
  | .saving _ prepared _ tokenId => some (prepared.collectionContract, tokenId)
  | .answered _ minted => minted

/-- The answer to the request. -/
def Stage.answer : Stage → Option (Answer MintResult)
  | .answered answer _ => some answer
  | _ => none

/-- The document the request was answered with. -/
def Stage.document (stage : Stage) : Option NFT :=
  (stage.answer.bind Answer.body).map MintResult.nft

/-- The answer to an error of the service. -/
def failed (message : String) : Answer MintResult := .message 500 ("Failed to mint NFT: " ++ message)

section Steps

variable (mongoose : Mongoose) (ethers : Ethers)

/-- A request up to the mint. Nothing in it depends on other requests. -/
def arrive (request : NFTRequest) : Stage :=
  match callOf request with
  | .error answer => .answered answer none
  | .ok call =>
    match prepare ethers call.collectionAddress call.nftData call.creatorAddress call.replies with
    | .error message => .answered (failed message) none
    | .ok prepared => .minting call prepared

/-- The transaction is mined, unless it fails, and its event tells the number. -/
def mine (call : Call) (prepared : Prepared) (backend : Backend) : Stage × Backend :=
  match call.replies.mint prepared.tokenURI with
  | .error message => (.answered (failed message) none, backend)
  | .ok transactionHash =>
    match exec (NFTService.mint prepared.collectionContract prepared.tokenURI) backend with
    | (.error message, after) => (.answered (failed message) none, after)
    | (.ok number, after) =>
      match ethers.toNumber number with
      | .error message =>
        (.answered (failed message) (some (prepared.collectionContract, number)), after)
      | .ok tokenId => (.saving call prepared transactionHash tokenId, after)

/-- The document is saved, unless it cannot be. -/
def save (call : Call) (prepared : Prepared) (transactionHash : String) (tokenId : Nat)
    (backend : Backend) : Stage × Backend :=
  let token := some (prepared.collectionContract, tokenId)
  match exec (NFTService.save mongoose call.replies
      (fields call.collectionAddress call.nftData call.creatorAddress prepared tokenId)) backend with
  | (.error message, after) => (.answered (failed message) token, after)
  | (.ok nft, after) =>
    (.answered (.data 201 { success := true, tokenId, tokenURI := prepared.tokenURI
                            transactionHash, nft }) token, after)

variable {κ : Type} [DecidableEq κ]

/-- The requests, the chain and the database. -/
abbrev State (κ : Type) := Shared Backend κ Stage

/-- No request has arrived. -/
def State.initial (κ : Type) (backend : Backend) : State κ := ⟨backend, fun _ => .idle⟩

/-- A request takes its next step, or somebody else mints. -/
inductive Event (κ : Type) where
  | arrive (key : κ)
  | mine (key : κ)
  | save (key : κ)
  | mintedElsewhere (collection : Address) (tokenURI : String)
deriving DecidableEq

/-- What an event does, if it is possible. -/
def step (requests : κ → NFTRequest) (s : State κ) : Event κ → Option (State κ)
  | .arrive key =>
    match s.stage key with
    | .idle => some (s.enter key (arrive ethers (requests key), s.store))
    | _ => none
  | .mine key =>
    match s.stage key with
    | .minting call prepared => some (s.enter key (mine ethers call prepared s.store))
    | _ => none
  | .save key =>
    match s.stage key with
    | .saving call prepared transactionHash tokenId =>
      some (s.enter key (save mongoose call prepared transactionHash tokenId s.store))
    | _ => none
  | .mintedElsewhere collection tokenURI =>
    some { s with store := s.store.push collection tokenURI }

end Steps

/-- What the controller demands of a body. -/
structure Accepted (fields : List (String × JsValue)) : Prop where
  name : (lookupField fields "name").truthy = true
  image : (lookupField fields "image").truthy = true ∨
    (lookupField fields "imageUrl").truthy = true
  attributes : (lookupField fields "attributes").truthy = true →
    (lookupField fields "attributes").isArray = true

/-- Whether properties can be read. -/
def readable : JsValue → Bool
  | .undefined | .null => false
  | _ => true

section Admission

variable {request : NFTRequest} {call : Call} {answer : Answer MintResult}

/-- A property of anything but `undefined` and `null` can be read; what is not there is
`undefined`. -/
theorem property_read {value : JsValue} (read : readable value = true) (key : String) :
    property value key =
      .ok (lookupField ((CollectionValidator.objectFields value).getD []) key) := by
  cases value with
  | undefined | null => cases read
  | object | buffer | array | string | number | boolean => rfl

/-- What the validator says of a body. -/
theorem validateNFTInput_cases (request : NFTRequest) :
    (Accepted request.fields ∧ validateNFTInput request.body = .ok none) ∨
    (¬ Accepted request.fields ∧ readable request.body = true ∧
      ∃ message, validateNFTInput request.body = .ok (some message)) ∨
    (¬ Accepted request.fields ∧ readable request.body = false ∧
      ∃ message, validateNFTInput request.body = .error message) := by
  cases read : readable request.body with
  | false =>
    refine .inr (.inr ⟨?_, rfl, ?_⟩)
    · intro accepted
      have named := accepted.name
      unfold NFTRequest.fields at named
      cases body : request.body with
      | undefined | null =>
        rw [body] at named
        cases named
      | object | buffer | array | string | number | boolean =>
        rw [body] at read
        cases read
    · cases body : request.body with
      | undefined | null => exact ⟨_, rfl⟩
      | object | buffer | array | string | number | boolean =>
        rw [body] at read
        cases read
  | true =>
    have fields : (CollectionValidator.objectFields request.body).getD [] = request.fields := rfl
    unfold validateNFTInput
    simp only [property_read read, fields, bind, Except.bind]
    cases name : (lookupField request.fields "name").truthy with
    | false => exact .inr (.inl ⟨fun accepted => by simp [accepted.name] at name, trivial, _, rfl⟩)
    | true =>
      cases image : (lookupField request.fields "image").truthy ||
          (lookupField request.fields "imageUrl").truthy with
      | false =>
        rw [Bool.or_eq_false_iff] at image
        simp only [image.1, image.2]
        exact .inr (.inl ⟨fun accepted => by simpa [image] using accepted.image, trivial, _, rfl⟩)
      | true =>
        rw [Bool.or_eq_true] at image
        have shown : (!(lookupField request.fields "image").truthy &&
            !(lookupField request.fields "imageUrl").truthy) = false := by
          rcases image with image | image <;> simp [image]
        rw [shown]
        cases attributes : (lookupField request.fields "attributes").truthy &&
            !(lookupField request.fields "attributes").isArray with
        | true =>
          rw [Bool.and_eq_true] at attributes
          exact .inr (.inl ⟨fun accepted => by
            simp [accepted.attributes attributes.1] at attributes, trivial, _, rfl⟩)
        | false =>
          refine .inl ⟨⟨name, image, ?_⟩, rfl⟩
          intro given
          simpa [given] using attributes

/-- A request that is admitted comes from a user, and its body is accepted. -/
theorem callOf_ok : callOf request = .ok call ↔ ∃ creatorAddress,
    request.user = some creatorAddress ∧ Accepted request.fields ∧
      call = ⟨request.collectionAddress, nftData request.fields request.file, creatorAddress,
        request.replies⟩ := by
  unfold callOf
  cases user : request.user with
  | none => simp
  | some creatorAddress =>
    rcases validateNFTInput_cases request with
      ⟨accepted, valid⟩ | ⟨unaccepted, _, message, valid⟩ | ⟨unaccepted, _, message, valid⟩
    · simp [valid, accepted, eq_comm]
    · simp [valid, unaccepted]
    · simp [valid, unaccepted]

/-- Any other is answered with a message. -/
theorem callOf_error (refused : callOf request = .error answer) : ∃ status text,
    answer = .message status text ∧
      ((status = 400 ∧ request.user.isSome = true ∧ readable request.body = true ∧
          ¬ Accepted request.fields) ∨
        (status = 500 ∧ ¬ (request.user.isSome = true ∧ readable request.body = true))) := by
  unfold callOf at refused
  cases user : request.user with
  | none =>
    rw [user] at refused
    cases refused
    exact ⟨_, _, rfl, .inr ⟨rfl, by simp⟩⟩
  | some creatorAddress =>
    rw [user] at refused
    rcases validateNFTInput_cases request with
      ⟨accepted, valid⟩ | ⟨unaccepted, read, message, valid⟩ | ⟨_, unread, message, valid⟩
    · rw [valid] at refused
      cases refused
    · rw [valid] at refused
      cases refused
      exact ⟨_, _, rfl, .inl ⟨rfl, rfl, read, unaccepted⟩⟩
    · rw [valid] at refused
      cases refused
      exact ⟨_, _, rfl, .inr ⟨rfl, by simp [unread]⟩⟩

end Admission

end NFTController

end OpenBeach
