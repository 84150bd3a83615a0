import OpenBeach.Library.Services
import OpenBeach.Library.UniqueKeys
import OpenBeach.Solidity

/-!
# Minting through the backend

The service uploads an image and its metadata, mints the token on chain and then saves a
document about it. The mint cannot be undone, so a document the schema rejects leaves a
token the database knows nothing of.

The libraries around the service are parameters: how Mongoose casts a value, what it says
about a document it rejects, and which contract a string stands for. What a call is told
by the chain, by IPFS and by the database is part of the call.
-/

namespace OpenBeach

open Services UniqueKeys

/-- A value of a request. A number is given by the text it prints as. Fields of an object are in
the order in which they were sent. -/
inductive JsValue where
  | undefined
  | null
  | boolean (value : Bool)
  | number (text : String)
  | string (text : String)
  | array (items : List JsValue)
  | object (fields : List (String × JsValue))
  | buffer (content : Bytes)

/-- Whether a condition takes the value for true. Objects, arrays and buffers are true even if
there is nothing in them. -/
def JsValue.truthy : JsValue → Bool
  | .undefined => false
  | .null => false
  | .boolean value => value
  | .number text => text != "0" && text != "NaN"
  | .string text => text != ""
  | .array _ => true
  | .object _ => true
  | .buffer _ => true

/-- `value || otherwise`. Only its own truth is asked for, not that of the other value. -/
def JsValue.or (value otherwise : JsValue) : JsValue :=
  if value.truthy then value else otherwise

/-- `toLowerCase`, on text in ASCII. -/
def toLowerCase (text : String) : String := String.ofList (text.toList.map Char.toLower)

/-- The fields of a request that the service reads. They have the names of the request, and any
values. -/
structure NFTData where
  image : JsValue
  name : JsValue
  description : JsValue
  attributes : JsValue
  external_url : JsValue
  background_color : JsValue
  animation_url : JsValue

/-- The metadata of a token. It is uploaded, and stored with the document. -/
structure NFTMetadata where
  name : JsValue
  description : JsValue
  image : String
  attributes : JsValue
  external_url : JsValue
  background_color : JsValue
  animation_url : JsValue

/-- What the service hands to `new NFT`. They are values of the request as they came, and what the
mint added. -/
structure NFTFields where
  tokenId : Nat
  name : JsValue
  description : JsValue
  image : String
  collectionAddress : String
  creator : String
  tokenURI : String
  metadata : NFTMetadata

/-- A document of `NFTSchema`. Optional fields are stored only if they were given. -/
structure NFT where
  tokenId : Nat
  name : String
  description : Option String
  image : Option String
  collectionAddress : String
  creator : String
  tokenURI : String
  metadata : NFTMetadata
  createdAt : Nat

/-- Mongoose, as far as the schema uses it: the string a value is cast to at a path, if
it is there at all, and the texts of errors. A string is cast to itself. -/
structure Mongoose where
  castString : String → JsValue → Except String (Option String)
  castString_string : ∀ path text, castString path (.string text) = .ok (some text)
  requiredMessage : String → String
  validationMessage : List (String × String) → String
  duplicateKeyMessage : String → Nat → String

/-- Ethers, as far as the service uses it: the contract a string stands for, and how an
address is printed. The empty string stands for no contract, and no address is printed as
the empty string. -/
structure Ethers where
  contractAt : String → Except String Address
  contractAt_empty : ∃ message, contractAt "" = .error message
  getAddress : Address → String
  getAddress_nonempty : ∀ account, getAddress account ≠ ""
  overflowMessage : Nat → String

namespace NFTSchema

/-- `type: String, required: true`. The empty string counts as missing. It is an error of the
path, with the message of the library. -/
def requiredString (mongoose : Mongoose) (path : String) (value : JsValue) :
    Except String String := do
  match ← mongoose.castString path value with
  | none => throw (mongoose.requiredMessage path)
  | some text => if text = "" then throw (mongoose.requiredMessage path) else pure text

/-- The error of a path, if it has one. A path that was cast and validated has none. -/
def errorAt {α : Type} (path : String) : Except String α → Option (String × String)
  | .error message => some (path, message)
  | .ok _ => none

/-- Cast and validate all paths. The errors of all paths are reported together. The message of the
error names every path that failed. -/
def validate (mongoose : Mongoose) (fields : NFTFields) (now : Nat) : Except String NFT :=
  match requiredString mongoose "name" fields.name,
    mongoose.castString "description" fields.description,
    mongoose.castString "image" (.string fields.image),
    requiredString mongoose "collectionAddress" (.string fields.collectionAddress),
    requiredString mongoose "creator" (.string fields.creator),
    requiredString mongoose "tokenURI" (.string fields.tokenURI) with
  | .ok name, .ok description, .ok image, .ok collectionAddress, .ok creator, .ok tokenURI =>
    .ok {
      tokenId := fields.tokenId
      name, description, image, collectionAddress, creator, tokenURI
      metadata := fields.metadata
      createdAt := now }
  | name, description, image, collectionAddress, creator, tokenURI =>
    .error (mongoose.validationMessage ([errorAt "name" name, errorAt "description" description,
      errorAt "image" image, errorAt "collectionAddress" collectionAddress,
      errorAt "creator" creator, errorAt "tokenURI" tokenURI].filterMap id))

end NFTSchema

/-- The tokens of each collection, as the URIs they were minted with in the order of their
numbers, and the documents. `unique: true` stands at `tokenId`, and the index that enforces it
is taken to exist. Mongoose builds it along with the connection in development only, since
`autoIndex` is off otherwise; then it is up to the database to have it. -/
structure Backend where
  minted : Address → List String
  documents : Table NFT.tokenId

/-- A collection mints its next token. Its number is its place in the list, counted from one. -/
def Backend.push (state : Backend) (collection : Address) (tokenURI : String) : Backend :=
  { state with minted :=
      Function.update state.minted collection (state.minted collection ++ [tokenURI]) }

/-- How many tokens a collection has minted. Tokens are never burnt, so it is the number of the
last one. -/
def Backend.supply (state : Backend) (collection : Address) : Nat :=
  (state.minted collection).length

/-- A mint adds one to the supply of its collection. The other collections keep theirs. -/
theorem Backend.supply_push (state : Backend) (collection : Address) (tokenURI : String) :
    (state.push collection tokenURI).supply =
      Function.update state.supply collection (state.supply collection + 1) := by
  funext other
  by_cases same : other = collection
  · subst same
    simp [Backend.supply, Backend.push]
  · simp [Backend.supply, Backend.push, same]

/-- What is uploaded. The image is uploaded first, for the metadata names its address. -/
inductive Upload where
  | image (image : JsValue)
  | metadata (metadata : NFTMetadata)

/-- What one call is told by the chain, by IPFS and by the database, and its time. -/
structure Replies where
  creator : Except String Address
  uploadToIPFS : Upload → Except String String
  mint : String → Except String String
  database : Except String Unit
  now : Nat

/-- The result of `mintNFT`. The document is the one that was stored. -/
structure MintResult where
  success : Bool
  tokenId : Nat
  tokenURI : String
  transactionHash : String
  nft : NFT

/-- Code that reads and writes the backend, and whose effects outlast its errors. A mint whose
document cannot be stored has still been mined. -/
abbrev Service := ExceptT String (StateM Backend)

/-- `Number.MAX_SAFE_INTEGER`. Greater integers are not told apart by the numbers of the language. -/
def MAX_SAFE_INTEGER : Nat := 2 ^ 53 - 1

/-- `BigNumber.toNumber`. It throws rather than return a number that is not exact. -/
def Ethers.toNumber (ethers : Ethers) (value : Nat) : Except String Nat :=
  if value ≤ MAX_SAFE_INTEGER then .ok value else .error (ethers.overflowMessage value)

namespace NFTService

variable (mongoose : Mongoose) (ethers : Ethers)

/-- The metadata object of `mintNFT`. Fields that are missing have the defaults of the source. -/
def metadata (nftData : NFTData) (imageHash : String) : NFTMetadata where
  name := nftData.name
  description := nftData.description
  image := "ipfs://" ++ imageHash
  attributes := nftData.attributes.or (.array [])
  external_url := nftData.external_url
  background_color := nftData.background_color
  animation_url := nftData.animation_url

/-- `collectionContract.mint`: the collection numbers its tokens from 1 on, and reports
the number in the event `NFTMinted`. -/
def mint (collection : Address) (tokenURI : String) : Service Nat := do
  let state ← get
  set (state.push collection tokenURI)
  pure (state.supply collection + 1)

/-- `nft.save`: the document is validated, then sent to the database. The table refuses a number
that it holds already. -/
def save (replies : Replies) (fields : NFTFields) : Service NFT := do
  let nft ← NFTSchema.validate mongoose fields replies.now
  replies.database
  let state ← get
  match state.documents.insert nft with
  | none => throw (mongoose.duplicateKeyMessage "tokenId" nft.tokenId)
  | some documents =>
    set { state with documents := documents }
    pure nft

/-- What `mintNFT` has at hand when it mints. It is what the checks and the uploads returned. -/
structure Prepared where
  collectionContract : Address
  imageHash : String
  metadata : NFTMetadata
  tokenURI : String

/-- The steps of `mintNFT` before the mint: check the creator, upload the image, create and
upload the metadata. -/
def prepare (collectionAddress : String) (nftData : NFTData) (creatorAddress : String)
    (replies : Replies) : Except String Prepared := do
  let collectionContract ← ethers.contractAt collectionAddress
  let creator ← replies.creator
  -- Printed addresses are ASCII, and no other letter is folded into a hexadecimal digit.
  if toLowerCase (ethers.getAddress creator) ≠ toLowerCase creatorAddress then
    throw "Only collection creator can mint NFTs"
  let imageHash ← replies.uploadToIPFS (.image nftData.image)
  let metadata := metadata nftData imageHash
  let metadataHash ← replies.uploadToIPFS (.metadata metadata)
  pure { collectionContract, imageHash, metadata, tokenURI := "ipfs://" ++ metadataHash }

/-- The document of `mintNFT`. The image is named by its address, and the creator as the request
has it. -/
def fields (collectionAddress : String) (nftData : NFTData) (creatorAddress : String)
    (prepared : Prepared) (tokenId : Nat) : NFTFields where
  tokenId := tokenId
  name := nftData.name
  description := nftData.description
  image := "ipfs://" ++ prepared.imageHash
  collectionAddress := collectionAddress
  creator := creatorAddress
  tokenURI := prepared.tokenURI
  metadata := prepared.metadata

/-- `mintNFT`. Whatever fails in it is told with the same beginning. -/
def mintNFT (collectionAddress : String) (nftData : NFTData) (creatorAddress : String)
    (replies : Replies) : Service MintResult :=
  ExceptT.adapt (fun message => "Failed to mint NFT: " ++ message) do
    let prepared ← prepare ethers collectionAddress nftData creatorAddress replies
    let transactionHash ← replies.mint prepared.tokenURI
    let number ← mint prepared.collectionContract prepared.tokenURI
    let tokenId ← ethers.toNumber number
    let nft ← save mongoose replies
      (fields collectionAddress nftData creatorAddress prepared tokenId)
    pure { success := true, tokenId, tokenURI := prepared.tokenURI, transactionHash, nft }

/-- `NFT.findOne`. There is at most one, since numbers are unique in the table. -/
def findOne (state : Backend) (collectionAddress : String) (tokenId : Nat) : Option NFT :=
  state.documents.find? fun nft =>
    nft.collectionAddress = collectionAddress ∧ nft.tokenId = tokenId

/-- `getNFTMetadata`. A document that is not found is an error like any other. -/
def getNFTMetadata (state : Backend) (database : Except String Unit) (collectionAddress : String)
    (tokenId : Nat) : Except String NFT :=
  Except.mapError (fun message => "Failed to get NFT metadata: " ++ message) do
    database
    match findOne state collectionAddress tokenId with
    | none => throw "NFT not found"
    | some nft => pure nft

/-- The arguments of a call, and what it is told. What it is told are the replies of the services
it asks. -/
structure Call where
  collectionAddress : String
  nftData : NFTData
  creatorAddress : String
  replies : Replies

/-- What a call answers, and the state it leaves. This is the call from its beginning to its end,
with nothing in between. -/
def perform (call : Call) (state : Backend) : Except String MintResult × Backend :=
  exec (mintNFT mongoose ethers call.collectionAddress call.nftData call.creatorAddress
    call.replies) state

/-- The creator check, both uploads and the mint succeed, and the database is reachable. What is
left to fail is the document. -/
structure Call.Passes (call : Call) : Prop where
  mints : ∃ prepared, prepare ethers call.collectionAddress call.nftData call.creatorAddress
      call.replies = .ok prepared ∧
    ∃ transactionHash, call.replies.mint prepared.tokenURI = .ok transactionHash
  reachable : call.replies.database = .ok ()

/-- The number of the token the call mints. A call for no collection has none. -/
def Call.number (call : Call) (state : Backend) : Nat :=
  match ethers.contractAt call.collectionAddress with
  | .ok collection => state.supply collection + 1
  | .error _ => 0

/-- The schema takes the name and the description. The other paths are filled by the service
itself. -/
def Storable (nftData : NFTData) : Prop :=
  (∃ name, mongoose.castString "name" nftData.name = .ok (some name) ∧ name ≠ "") ∧
  ∃ description, mongoose.castString "description" nftData.description = .ok description

section Effects

variable {mongoose ethers}

/-- A required string is there exactly if the value is cast to a string with letters in it. -/
theorem requiredString_ok {path text : String} {value : JsValue} :
    NFTSchema.requiredString mongoose path value = .ok text ↔
      mongoose.castString path value = .ok (some text) ∧ text ≠ "" := by
  unfold NFTSchema.requiredString
  rw [bind_ok]
  constructor
  · rintro ⟨found, cast, required⟩
    cases found with
    | none => cases required
    | some other =>
      dsimp only at required
      split at required
      · cases required
      · next present =>
        cases required
        exact ⟨cast, present⟩
  · rintro ⟨cast, present⟩
    exact ⟨some text, cast, if_neg present⟩

/-- A text that is not empty passes as it is. -/
theorem requiredString_string {path text : String} (present : text ≠ "") :
    NFTSchema.requiredString mongoose path (.string text) = .ok text :=
  requiredString_ok.mpr ⟨mongoose.castString_string path text, present⟩

/-- The schema takes fields exactly if it can cast the name and the description, and the
name is there. -/
theorem validate_ok {fields : NFTFields} {now : Nat} {nft : NFT}
    (collectionAddress : fields.collectionAddress ≠ "") (creator : fields.creator ≠ "")
    (tokenURI : fields.tokenURI ≠ "") :
    NFTSchema.validate mongoose fields now = .ok nft ↔ ∃ name description,
      (mongoose.castString "name" fields.name = .ok (some name) ∧ name ≠ "") ∧
      mongoose.castString "description" fields.description = .ok description ∧
      nft = {
        tokenId := fields.tokenId
        name, description
        image := some fields.image
        collectionAddress := fields.collectionAddress
        creator := fields.creator
        tokenURI := fields.tokenURI
        metadata := fields.metadata
        createdAt := now } := by
  unfold NFTSchema.validate
  rw [mongoose.castString_string, requiredString_string collectionAddress,
    requiredString_string creator, requiredString_string tokenURI]
  simp only [← requiredString_ok]
  cases NFTSchema.requiredString mongoose "name" fields.name with
  | error message => simp
  | ok name =>
    cases mongoose.castString "description" fields.description with
    | error message => simp
    | ok description => simp [eq_comm]

/-- A document is stored if it is valid and its number is new. -/
theorem exec_save {replies : Replies} {fields : NFTFields} {state : Backend}
    (reachable : replies.database = .ok ()) :
    exec (save mongoose replies fields) state =
      match NFTSchema.validate mongoose fields replies.now with
      | .error message => (.error message, state)
      | .ok nft =>
        match state.documents.insert nft with
        | none => (.error (mongoose.duplicateKeyMessage "tokenId" nft.tokenId), state)
        | some documents => (.ok nft, { state with documents := documents }) := by
  unfold save
  simp only [exec_bind, exec_lift, reachable, exec_get]
  cases NFTSchema.validate mongoose fields replies.now with
  | error message => rfl
  | ok nft =>
    cases inserted : state.documents.insert nft with
    | none => simp [inserted]
    | some documents => simp only [inserted, exec_bind, exec_set, exec_pure]

/-- Only the empty string is folded to the empty string. -/
theorem toLowerCase_empty {text : String} : toLowerCase text = "" ↔ text = "" := by
  rw [toLowerCase, ← String.toList_eq_nil_iff, String.toList_ofList, List.map_eq_nil_iff,
    String.toList_eq_nil_iff]

/-- Two texts that are equal but for their case are both there, or neither of them is. So a creator
who has the address of the collection's creator has an address. -/
theorem toLowerCase_nonempty {text other : String} (same : toLowerCase text = toLowerCase other)
    (nonempty : text ≠ "") : other ≠ "" := by
  rintro rfl
  have empty : toLowerCase text = "" := same.trans (toLowerCase_empty.mpr rfl)
  exact nonempty (toLowerCase_empty.mp empty)

/-- What the checks before the mint establish. -/
theorem prepare_ok {collectionAddress creatorAddress : String} {nftData : NFTData}
    {replies : Replies} {prepared : Prepared}
    (succeeded : prepare ethers collectionAddress nftData creatorAddress replies =
      .ok prepared) :
    ethers.contractAt collectionAddress = .ok prepared.collectionContract ∧
      collectionAddress ≠ "" ∧ creatorAddress ≠ "" ∧ prepared.tokenURI ≠ "" := by
  unfold prepare at succeeded
  obtain ⟨collection, contract, succeeded⟩ := bind_ok.mp succeeded
  obtain ⟨creator, _, succeeded⟩ := bind_ok.mp succeeded
  split at succeeded
  · cases succeeded
  · next same =>
    obtain ⟨imageHash, _, succeeded⟩ := bind_ok.mp succeeded
    obtain ⟨metadataHash, _, succeeded⟩ := bind_ok.mp succeeded
    cases succeeded
    refine ⟨contract, ?_, ?_, by simp⟩
    · intro empty
      obtain ⟨message, refused⟩ := ethers.contractAt_empty
      rw [empty, refused] at contract
      cases contract
    · exact toLowerCase_nonempty (Decidable.not_not.mp same) (ethers.getAddress_nonempty creator)

/-- A call that is stopped before the mint leaves everything as it is. -/
theorem perform_stopped {call : Call} {message : String} (state : Backend)
    (stopped : prepare ethers call.collectionAddress call.nftData call.creatorAddress
      call.replies = .error message) :
    perform mongoose ethers call state = (.error ("Failed to mint NFT: " ++ message), state) := by
  unfold perform mintNFT
  simp only [exec_adapt, exec_bind, exec_lift, stopped]
  rfl

/-- So does one whose mint transaction fails. -/
theorem perform_unminted {call : Call} {prepared : Prepared} {message : String}
    (state : Backend)
    (succeeded : prepare ethers call.collectionAddress call.nftData call.creatorAddress
      call.replies = .ok prepared)
    (unminted : call.replies.mint prepared.tokenURI = .error message) :
    perform mongoose ethers call state = (.error ("Failed to mint NFT: " ++ message), state) := by
  unfold perform mintNFT
  simp only [exec_adapt, exec_bind, exec_lift, succeeded, unminted]
  rfl

/-- The schema takes the document, its number can be read, and no document has it. -/
structure Recordable (mongoose : Mongoose) (ethers : Ethers) (call : Call) (state : Backend) :
    Prop where
  storable : Storable mongoose call.nftData
  safe : call.number ethers state ≤ MAX_SAFE_INTEGER
  fresh : call.number ethers state ∉ state.documents.rows.map NFT.tokenId

/-- What a call stores and answers. -/
structure Recording (ethers : Ethers) (call : Call) (before : Backend) (result : MintResult)
    (after : Backend) : Prop where
  tokenId : result.tokenId = call.number ethers before
  rows : after.documents.rows = before.documents.rows ++ [result.nft]
  sameTokenId : result.nft.tokenId = result.tokenId
  sameTokenURI : result.nft.tokenURI = result.tokenURI
  sameCollection : result.nft.collectionAddress = call.collectionAddress

/-- After the mint the number is read and the document saved. -/
theorem perform_eq {call : Call} {prepared : Prepared} {transactionHash : String}
    (state : Backend)
    (succeeded : prepare ethers call.collectionAddress call.nftData call.creatorAddress
      call.replies = .ok prepared)
    (mints : call.replies.mint prepared.tokenURI = .ok transactionHash)
    (reachable : call.replies.database = .ok ()) :
    perform mongoose ethers call state =
      let failed := fun message => "Failed to mint NFT: " ++ message
      let minted := state.push prepared.collectionContract prepared.tokenURI
      match ethers.toNumber (state.supply prepared.collectionContract + 1) with
      | .error message => (.error (failed message), minted)
      | .ok tokenId =>
        match NFTSchema.validate mongoose (fields call.collectionAddress call.nftData
            call.creatorAddress prepared tokenId) call.replies.now with
        | .error message => (.error (failed message), minted)
        | .ok nft =>
          match state.documents.insert nft with
          | none =>
            (.error (failed (mongoose.duplicateKeyMessage "tokenId" nft.tokenId)), minted)
          | some documents =>
            (.ok ⟨true, tokenId, prepared.tokenURI, transactionHash, nft⟩,
              { minted with documents := documents }) := by
  unfold perform mintNFT mint
  simp only [exec_adapt, exec_bind, exec_lift, exec_get, exec_set, exec_pure, succeeded, mints,
    exec_save reachable]
  cases ethers.toNumber (state.supply prepared.collectionContract + 1) with
  | error message => rfl
  | ok tokenId =>
    dsimp only
    cases NFTSchema.validate mongoose (fields call.collectionAddress call.nftData
        call.creatorAddress prepared tokenId) call.replies.now with
    | error message => rfl
    | ok nft =>
      dsimp only [Backend.push]
      cases state.documents.insert nft with
      | none => rfl
      | some documents => rfl

/-- A call that passes its checks is recorded or leaves the documents as they are. -/
theorem perform_cases (mongoose : Mongoose) {call : Call} (passes : call.Passes ethers) (state : Backend) :
    (Recordable mongoose ethers call state ∧
      ∃ result, (perform mongoose ethers call state).1 = .ok result ∧
        Recording ethers call state result (perform mongoose ethers call state).2) ∨
    (¬ Recordable mongoose ethers call state ∧
      ∃ message, (perform mongoose ethers call state).1 = .error message ∧
        (perform mongoose ethers call state).2.documents = state.documents) := by
  obtain ⟨prepared, succeeded, transactionHash, mints⟩ := passes.mints
  obtain ⟨contract, collectionAddress, creator, tokenURI⟩ := prepare_ok succeeded
  have number : call.number ethers state = state.supply prepared.collectionContract + 1 := by
    rw [Call.number, contract]
  have schema (nft : NFT) := @validate_ok mongoose (fields call.collectionAddress call.nftData
    call.creatorAddress prepared (call.number ethers state)) call.replies.now nft
    collectionAddress creator tokenURI
  rw [perform_eq state succeeded mints passes.reachable, ← number]
  by_cases safe : call.number ethers state ≤ MAX_SAFE_INTEGER
  · rw [Ethers.toNumber, if_pos safe]
    dsimp only
    cases valid : NFTSchema.validate mongoose (fields call.collectionAddress call.nftData
        call.creatorAddress prepared (call.number ethers state)) call.replies.now with
    | error message =>
      refine .inr ⟨?_, _, rfl, rfl⟩
      rintro ⟨⟨⟨name, named⟩, description, described⟩, _, _⟩
      have taken := (schema _).mpr ⟨name, description, named, described, rfl⟩
      rw [valid] at taken
      cases taken
    | ok nft =>
      obtain ⟨name, description, named, described, shape⟩ := (schema nft).mp valid
      have sameTokenId : nft.tokenId = call.number ethers state := congrArg NFT.tokenId shape
      dsimp only
      by_cases held : nft.tokenId ∈ state.documents.rows.map NFT.tokenId
      · rw [Table.insert_held held]
        rw [sameTokenId] at held
        exact .inr ⟨fun recordable => recordable.fresh held, _, rfl, rfl⟩
      · obtain ⟨documents, inserted, rows⟩ := Table.insert_fresh held
        rw [inserted]
        rw [sameTokenId] at held
        refine .inl ⟨⟨⟨⟨name, named⟩, description, described⟩, safe, held⟩, _, rfl, ?_⟩
        exact ⟨rfl, rows, sameTokenId, congrArg NFT.tokenURI shape,
          congrArg NFT.collectionAddress shape⟩
  · rw [Ethers.toNumber, if_neg safe]
    exact .inr ⟨fun recordable => safe recordable.safe, _, rfl, rfl⟩

/-- A call that passes its checks mints, whether it is recorded or not. -/
theorem perform_supply (mongoose : Mongoose) {call : Call} (passes : call.Passes ethers)
    (state : Backend) :
    ∃ collection, ethers.contractAt call.collectionAddress = .ok collection ∧
      (perform mongoose ethers call state).2.supply =
        Function.update state.supply collection (state.supply collection + 1) := by
  obtain ⟨prepared, succeeded, transactionHash, mints⟩ := passes.mints
  refine ⟨_, (prepare_ok succeeded).1, ?_⟩
  have pushed : (perform mongoose ethers call state).2.minted =
      (state.push prepared.collectionContract prepared.tokenURI).minted := by
    rw [perform_eq state succeeded mints passes.reachable]
    dsimp only
    cases ethers.toNumber (state.supply prepared.collectionContract + 1) with
    | error message => rfl
    | ok tokenId =>
      dsimp only
      cases NFTSchema.validate mongoose (fields call.collectionAddress call.nftData
          call.creatorAddress prepared tokenId) call.replies.now with
      | error message => rfl
      | ok nft =>
        dsimp only
        cases state.documents.insert nft with
        | none => rfl
        | some documents => rfl
  rw [← Backend.supply_push state prepared.collectionContract prepared.tokenURI]
  funext other
  rw [Backend.supply, Backend.supply, pushed]

end Effects

end NFTService

end OpenBeach
