import OpenBeach.NFTService

/-!
# Which mints the database records

The schema wants token numbers to be unique by themselves, while each collection counts
its own tokens from 1 on. A sequence of mints is recorded exactly if no number comes up
twice, in whatever collections.
-/

namespace OpenBeach

namespace NFTService

open UniqueKeys

variable (mongoose : Mongoose) (ethers : Ethers)

/-- The service mints, or somebody else does. Calls of the service run one after the other here. -/
inductive Step where
  | mintNFT (call : Call)
  | mintedElsewhere (collection : Address) (tokenURI : String)

/-- A call of the service with its answer and the states around it. The state after it is the one
before the next step. -/
structure Entry where
  before : Backend
  call : Call
  outcome : Except String MintResult
  after : Backend

/-- The state after some steps. The order of the steps is that of the list. -/
def final : Backend → List Step → Backend
  | state, [] => state
  | state, .mintNFT call :: rest => final (perform mongoose ethers call state).2 rest
  | state, .mintedElsewhere collection tokenURI :: rest =>
    final (state.push collection tokenURI) rest

/-- The calls among some steps, in their order. Mints by others are not among them, but they have
changed the states. -/
def history : Backend → List Step → List Entry
  | _, [] => []
  | state, .mintNFT call :: rest =>
    let answer := perform mongoose ethers call state
    ⟨state, call, answer.1, answer.2⟩ :: history answer.2 rest
  | state, .mintedElsewhere collection tokenURI :: rest =>
    history (state.push collection tokenURI) rest

/-- The numbers of the tokens the service mints, from how many tokens there are. They depend on
the steps alone, not on what the database did. -/
def numbers : (Address → Nat) → List Step → List Nat
  | _, [] => []
  | supply, .mintNFT call :: rest =>
    match ethers.contractAt call.collectionAddress with
    | .error _ => numbers supply rest
    | .ok collection => (supply collection + 1) ::
        numbers (Function.update supply collection (supply collection + 1)) rest
  | supply, .mintedElsewhere collection _ :: rest =>
    numbers (Function.update supply collection (supply collection + 1)) rest

/-- The call returned, stored one document, and the document is found by the collection
and the number. -/
def Entry.Recorded (last : Backend) (entry : Entry) : Prop :=
  ∃ result, entry.outcome = .ok result ∧
    entry.after.documents.rows = entry.before.documents.rows ++ [result.nft] ∧
    ∃ nft, getNFTMetadata last (.ok ()) entry.call.collectionAddress result.tokenId = .ok nft ∧
      nft.tokenURI = result.tokenURI

section Runs

variable {mongoose ethers}

/-- Documents stay. Neither a call nor a mint by somebody else takes one back. -/
theorem final_rows {state : Backend} {steps : List Step}
    (passes : ∀ call, .mintNFT call ∈ steps → call.Passes ethers) {nft : NFT}
    (stored : nft ∈ state.documents.rows) :
    nft ∈ (final mongoose ethers state steps).documents.rows := by
  induction steps generalizing state with
  | nil => exact stored
  | cons step rest inductionHypothesis =>
    have others : ∀ call, .mintNFT call ∈ rest → call.Passes ethers :=
      fun call member => passes call (List.mem_cons_of_mem _ member)
    cases step with
    | mintedElsewhere collection tokenURI => exact inductionHypothesis others stored
    | mintNFT call =>
      apply inductionHypothesis others
      rcases perform_cases mongoose (passes call List.mem_cons_self) state with
        ⟨_, result, _, recording⟩ | ⟨_, message, _, kept⟩
      · rw [recording.rows]
        exact List.mem_append_left _ stored
      · rw [kept]
        exact stored

/-- A stored document is found by its collection and its number. No other document has its number,
so it is the one that is found. -/
theorem getNFTMetadata_ok {state : Backend} {nft : NFT} (stored : nft ∈ state.documents.rows) :
    getNFTMetadata state (.ok ()) nft.collectionAddress nft.tokenId = .ok nft := by
  have found : findOne state nft.collectionAddress nft.tokenId = some nft := by
    apply Table.find?_eq stored
    · simp
    · intro other met
      exact (of_decide_eq_true met).2
  simp [getNFTMetadata, found, bind, Except.bind, pure, Except.pure, Except.mapError]

/-- A recording adds the number of the call. The table keeps its order. -/
theorem Recording.ids {call : Call} {before after : Backend} {result : MintResult}
    (recording : Recording ethers call before result after) :
    after.documents.rows.map NFT.tokenId =
      before.documents.rows.map NFT.tokenId ++ [call.number ethers before] := by
  rw [recording.rows, List.map_append, List.map_singleton, recording.sameTokenId,
    recording.tokenId]

/-- What was recorded is found after any further steps. The chain keeps its tokens, and the table
its documents. -/
theorem Recording.recorded (mongoose : Mongoose) {call : Call} {before after : Backend} {result : MintResult}
    {outcome : Except String MintResult} {rest : List Step}
    (recording : Recording ethers call before result after) (answered : outcome = .ok result)
    (passes : ∀ call, .mintNFT call ∈ rest → call.Passes ethers) :
    Entry.Recorded (final mongoose ethers after rest) ⟨before, call, outcome, after⟩ := by
  have stored : result.nft ∈ after.documents.rows := by
    rw [recording.rows]
    exact List.mem_append_right _ (List.mem_singleton_self _)
  refine ⟨result, answered, recording.rows, result.nft, ?_, recording.sameTokenURI⟩
  rw [← recording.sameCollection, ← recording.sameTokenId]
  exact getNFTMetadata_ok (final_rows passes stored)

/-- The number of a call comes first, and the collection counts on from it. The call mints,
whether or not its document is stored. -/
theorem numbers_mintNFT (mongoose : Mongoose) {call : Call} (passes : call.Passes ethers)
    (state : Backend) (rest : List Step) :
    numbers ethers state.supply (.mintNFT call :: rest) =
      call.number ethers state ::
        numbers ethers (perform mongoose ethers call state).2.supply rest := by
  obtain ⟨collection, contract, counted⟩ := perform_supply mongoose passes state
  rw [numbers, Call.number, contract, counted]

/-- Every mint is recorded exactly if the schema takes every name and description, the numbers are
within reach, and no number is minted twice or was there before. The index is on the number alone,
while a document is looked for by collection and number. So a second collection loses its
documents as soon as it repeats a number. -/
theorem recorded_iff {start : Backend} {steps : List Step}
    (passes : ∀ call, .mintNFT call ∈ steps → call.Passes ethers) :
    (∀ entry ∈ history mongoose ethers start steps,
      entry.Recorded (final mongoose ethers start steps)) ↔
    (∀ call, .mintNFT call ∈ steps → Storable mongoose call.nftData) ∧
      (∀ number ∈ numbers ethers start.supply steps, number ≤ MAX_SAFE_INTEGER) ∧
      (start.documents.rows.map NFT.tokenId ++ numbers ethers start.supply steps).Nodup := by
  induction steps generalizing start with
  | nil => simp [history, numbers, start.documents.unique]
  | cons step rest inductionHypothesis =>
    have others : ∀ call, .mintNFT call ∈ rest → call.Passes ethers :=
      fun call member => passes call (List.mem_cons_of_mem _ member)
    cases step with
    | mintedElsewhere collection tokenURI =>
      have later := @inductionHypothesis (start.push collection tokenURI) others
      have kept : (start.push collection tokenURI).documents = start.documents := rfl
      rw [Backend.supply_push, kept] at later
      simpa [history, final, numbers] using later
    | mintNFT call =>
      have own := passes call List.mem_cons_self
      have later := @inductionHypothesis (perform mongoose ethers call start).2 others
      have storable : (∀ other, .mintNFT other ∈ Step.mintNFT call :: rest →
          Storable mongoose other.nftData) ↔ Storable mongoose call.nftData ∧
            ∀ other, .mintNFT other ∈ rest → Storable mongoose other.nftData := by
        simp only [List.mem_cons, Step.mintNFT.injEq, forall_eq_or_imp]
      rw [history, final, List.forall_mem_cons, numbers_mintNFT mongoose own, storable,
        List.forall_mem_cons]
      rcases perform_cases mongoose own start with
        ⟨recordable, result, answered, recording⟩ | ⟨lost, message, refused, _⟩
      · have recorded := recording.recorded mongoose answered others
        rw [recording.ids, List.append_assoc, List.singleton_append] at later
        simp only [recorded, recordable.storable, recordable.safe, true_and, later]
      · apply iff_of_false
        · rintro ⟨⟨result, answered, _⟩, _⟩
          rw [refused] at answered
          cases answered
        · rintro ⟨⟨nameable, _⟩, ⟨safe, _⟩, distinct⟩
          exact lost ⟨nameable, safe, fun held =>
            List.disjoint_of_nodup_append distinct held List.mem_cons_self⟩

end Runs

section Sample

/-- Mongoose on the values of the sample. Other messages are made of the name of the path. -/
def sampleMongoose : Mongoose where
  castString path
    | .undefined => .ok none
    | .null => .ok none
    | .boolean value => .ok (some (if value then "true" else "false"))
    | .number text => .ok (some text)
    | .string text => .ok (some text)
    | .array _ => .error ("Cast to string failed at path " ++ path)
    | .object _ => .error ("Cast to string failed at path " ++ path)
    | .buffer _ => .error ("Cast to string failed at path " ++ path)
  castString_string _ _ := rfl
  requiredMessage path := "Path " ++ path ++ " is required."
  validationMessage errors := "NFT validation failed: " ++
    String.intercalate ", " (errors.map fun error => error.1 ++ ": " ++ error.2)
  duplicateKeyMessage path number :=
    "E11000 duplicate key error dup key: " ++ path ++ ": " ++ toString number

/-- The hexadecimal digits of an address. There are forty of them behind the mark. -/
def printed (account : Address) : String :=
  String.ofList ('0' :: 'x' :: (List.range 40).map fun i =>
    Nat.digitChar (account.toNat / 16 ^ (39 - i) % 16))

/-- Two collections, and their creator. -/
def firstCollection : Address := 0x1111111111111111111111111111111111111111

/-- The address of another collection of the sample. -/
def secondCollection : Address := 0x2222222222222222222222222222222222222222

/-- The address that both collections name as their creator. -/
def collectionCreator : Address := 0x9999999999999999999999999999999999999999

/-- Ethers where only these collections are known. Both are created by the account above. -/
def sampleEthers : Ethers where
  contractAt text :=
    if text = "0x1111111111111111111111111111111111111111" then .ok firstCollection
    else if text = "0x2222222222222222222222222222222222222222" then .ok secondCollection
    else .error "invalid address"
  contractAt_empty := ⟨"invalid address", by decide⟩
  getAddress := printed
  getAddress_nonempty account empty := by simpa [printed] using congrArg String.toList empty
  overflowMessage value := "overflow: " ++ toString value

/-- A call for a collection that goes well up to the mint. Whether it is recorded depends on the
table alone. -/
def sampleCall (collectionAddress metadataHash : String) : Call where
  collectionAddress := collectionAddress
  nftData := ⟨.buffer [0x89], .string "Dragon", .undefined, .undefined, .undefined, .undefined,
    .undefined⟩
  creatorAddress := "0x9999999999999999999999999999999999999999"
  replies := {
    creator := .ok collectionCreator
    uploadToIPFS := fun
      | .image _ => .ok "QmImage"
      | .metadata _ => .ok metadataHash
    mint := fun _ => .ok "0x5eed"
    database := .ok ()
    now := 1700000000000 }

/-- A backend in which nothing has happened. Both the tokens and the documents are missing. -/
def emptyBackend : Backend := ⟨fun _ => [], Table.empty NFT.tokenId⟩

/-- The calls of the sample pass the checks before the mint, for any collection that there is. -/
theorem sampleCall_passes {collectionAddress metadataHash : String}
    (known : ∃ collection, sampleEthers.contractAt collectionAddress = .ok collection) :
    (sampleCall collectionAddress metadataHash).Passes sampleEthers := by
  obtain ⟨collection, contract⟩ := known
  have same : toLowerCase (sampleEthers.getAddress collectionCreator) =
      toLowerCase "0x9999999999999999999999999999999999999999" := by decide +kernel
  have prepared : prepare sampleEthers collectionAddress
      (sampleCall collectionAddress metadataHash).nftData
      "0x9999999999999999999999999999999999999999"
      (sampleCall collectionAddress metadataHash).replies =
        .ok ⟨collection, "QmImage", metadata (sampleCall collectionAddress metadataHash).nftData
          "QmImage", "ipfs://" ++ metadataHash⟩ := by
    simp [prepare, sampleCall, contract, same, bind, Except.bind, pure, Except.pure]
  exact ⟨⟨_, prepared, _, rfl⟩, rfl⟩

/-- Their documents are valid. Their names are texts, and there are no descriptions. -/
theorem sampleCall_storable (collectionAddress metadataHash : String) :
    Storable sampleMongoose (sampleCall collectionAddress metadataHash).nftData :=
  ⟨⟨"Dragon", rfl, by decide⟩, none, rfl⟩

/-- The first token of each of two collections. Both tokens have the number 1, and the table takes
it once. -/
def twoCollections : List Step :=
  [.mintNFT (sampleCall "0x1111111111111111111111111111111111111111" "QmFirst"),
    .mintNFT (sampleCall "0x2222222222222222222222222222222222222222" "QmSecond")]

/-- Two tokens of one collection, with one minted by somebody else in between. The tokens of the
service have different numbers. -/
def oneCollection : List Step :=
  [.mintNFT (sampleCall "0x1111111111111111111111111111111111111111" "QmFirst"),
    .mintedElsewhere firstCollection "ipfs://QmOther",
    .mintNFT (sampleCall "0x1111111111111111111111111111111111111111" "QmSecond")]

/-- Two calls in one collection, with a mint of somebody else in between: both are recorded, with
the numbers one and three. Numbers that others mint in between are skipped, which does no harm. -/
theorem oneCollection_recorded :
    numbers sampleEthers emptyBackend.supply oneCollection = [1, 3] ∧
      ∀ entry ∈ history sampleMongoose sampleEthers emptyBackend oneCollection,
        entry.Recorded (final sampleMongoose sampleEthers emptyBackend oneCollection) := by
  have passes : ∀ call, .mintNFT call ∈ oneCollection → call.Passes sampleEthers := by
    intro call member
    simp only [oneCollection, List.mem_cons, Step.mintNFT.injEq, reduceCtorEq, List.not_mem_nil,
      or_false, false_or] at member
    rcases member with rfl | rfl
    · exact sampleCall_passes ⟨firstCollection, by decide +kernel⟩
    · exact sampleCall_passes ⟨firstCollection, by decide +kernel⟩
  refine ⟨by decide +kernel,
    (recorded_iff passes).mpr ⟨?_, by decide +kernel, by decide +kernel⟩⟩
  intro call member
  simp only [oneCollection, List.mem_cons, Step.mintNFT.injEq, reduceCtorEq, List.not_mem_nil,
    or_false, false_or] at member
  rcases member with rfl | rfl
  · exact sampleCall_storable _ _
  · exact sampleCall_storable _ _

/-- The first token of the second collection is minted, but the database has a token of that
number, so the call fails and the token is not found. Both collections number from one. -/
theorem twoCollections_unrecorded :
    (∀ call, .mintNFT call ∈ twoCollections → call.Passes sampleEthers) ∧
    (final sampleMongoose sampleEthers emptyBackend twoCollections).minted secondCollection =
      ["ipfs://QmSecond"] ∧
    (history sampleMongoose sampleEthers emptyBackend twoCollections).map
        (fun entry => entry.outcome.map MintResult.tokenId) =
      [.ok 1, .error "Failed to mint NFT: E11000 duplicate key error dup key: tokenId: 1"] ∧
    (getNFTMetadata (final sampleMongoose sampleEthers emptyBackend twoCollections) (.ok ())
        "0x2222222222222222222222222222222222222222" 1).map NFT.tokenURI =
      .error "Failed to get NFT metadata: NFT not found" ∧
    ¬ ∀ entry ∈ history sampleMongoose sampleEthers emptyBackend twoCollections,
      entry.Recorded (final sampleMongoose sampleEthers emptyBackend twoCollections) := by
  refine ⟨?_, by decide +kernel, by decide +kernel, by decide +kernel, ?_⟩
  · intro call member
    simp only [twoCollections, List.mem_cons, Step.mintNFT.injEq, List.not_mem_nil,
      or_false] at member
    rcases member with rfl | rfl
    · exact sampleCall_passes ⟨firstCollection, by decide +kernel⟩
    · exact sampleCall_passes ⟨secondCollection, by decide +kernel⟩
  · intro recorded
    have failed : (history sampleMongoose sampleEthers emptyBackend twoCollections).any
        (fun entry => !entry.outcome.isOk) = true := by decide +kernel
    obtain ⟨entry, member, failed⟩ := List.any_eq_true.mp failed
    obtain ⟨result, answered, _⟩ := recorded entry member
    rw [answered] at failed
    cases failed

end Sample

end NFTService

end OpenBeach
