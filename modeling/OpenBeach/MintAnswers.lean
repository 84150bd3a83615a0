import OpenBeach.MintInterleavings

/-!
# What requests to mint are answered

Chain, database and metadata agree about every token that a request was answered with, and
what was answered is served. A request whose token is minted can still lose its document:
the schema wants token numbers to be unique across collections, and the first to be saved
wins.
-/

namespace OpenBeach

open Services Schedules UniqueKeys Handlers NFTService

namespace NFTController

variable {κ : Type}

section Documents

variable {mongoose : Mongoose} {ethers : Ethers} {requests : κ → NFTRequest} {start : Backend}
  {events : List (Event κ)} {s : State κ}

/-- The uploads before the mint. -/
theorem prepare_uploads {collectionAddress creatorAddress : String} {nftData : NFTData}
    {replies : Replies} {prepared : Prepared}
    (succeeded : prepare ethers collectionAddress nftData creatorAddress replies = .ok prepared) :
    replies.uploadToIPFS (.image nftData.image) = .ok prepared.imageHash ∧
      prepared.metadata = metadata nftData prepared.imageHash ∧
      ∃ metadataHash, replies.uploadToIPFS (.metadata prepared.metadata) = .ok metadataHash ∧
        prepared.tokenURI = "ipfs://" ++ metadataHash := by
  unfold prepare at succeeded
  obtain ⟨collection, _, succeeded⟩ := bind_ok.mp succeeded
  obtain ⟨creator, _, succeeded⟩ := bind_ok.mp succeeded
  split at succeeded
  · cases succeeded
  · obtain ⟨imageHash, image, succeeded⟩ := bind_ok.mp succeeded
    obtain ⟨metadataHash, uploaded, succeeded⟩ := bind_ok.mp succeeded
    cases succeeded
    exact ⟨image, rfl, metadataHash, uploaded, rfl⟩

/-- What a request was answered with agrees with the chain, the database and IPFS: its token has
the URI of the metadata in the document, and these name the image the request came with. -/
structure Agrees (ethers : Ethers) (request : NFTRequest) (backend : Backend) (result : MintResult)
    (collection : Address) : Prop where
  contract : ethers.contractAt request.collectionAddress = .ok collection
  address : result.nft.collectionAddress = request.collectionAddress
  number : result.nft.tokenId = result.tokenId
  tokenURI : result.nft.tokenURI = result.tokenURI
  safe : result.tokenId ≤ MAX_SAFE_INTEGER
  holds : backend.Holds collection result.tokenId result.tokenURI
  metadata : ∃ metadataHash,
    request.replies.uploadToIPFS (.metadata result.nft.metadata) = .ok metadataHash ∧
      result.tokenURI = "ipfs://" ++ metadataHash
  image : ∃ imageHash, request.replies.uploadToIPFS
      (.image (nftData request.fields request.file).image) = .ok imageHash ∧
    result.nft.metadata = NFTService.metadata (nftData request.fields request.file) imageHash

/-- A request that was answered with success has its token, its document is stored, and chain,
document and metadata agree about it. -/
theorem Sound.agrees {request : NFTRequest} {backend : Backend} {stage : Stage}
    {result : MintResult} (sound : Sound mongoose ethers request backend stage)
    (answered : stage.answer = some (.data 201 result)) :
    ∃ collection, stage.token = some (collection, result.tokenId) ∧
      result.nft ∈ backend.documents.rows ∧ Agrees ethers request backend result collection := by
  cases sound with
  | idle | minting | saving | unminted | lost => cases answered
  | refused answer refused =>
    obtain ⟨status, text, rfl, _⟩ := callOf_error refused
    cases answered
  | recorded call prepared transactionHash nft mints tokenId holds recorded =>
    cases answered
    obtain ⟨creatorAddress, _, _, rfl⟩ := callOf_ok.mp mints.admitted
    obtain ⟨image, shown, metadataHash, uploaded, named⟩ := prepare_uploads mints.prepares
    refine ⟨prepared.collectionContract, rfl, recorded.stored, (prepare_ok mints.prepares).1,
      recorded.collection, recorded.number, recorded.tokenURI, recorded.safe, holds, ?_, ?_⟩
    · rw [recorded.metadata]
      exact ⟨metadataHash, uploaded, named⟩
    · rw [recorded.metadata]
      exact ⟨prepared.imageHash, image, shown⟩

/-- Documents come with the answer of success. -/
theorem Sound.document_iff {request : NFTRequest} {backend : Backend} {stage : Stage} {nft : NFT}
    (sound : Sound mongoose ethers request backend stage) :
    stage.document = some nft ↔ ∃ result, stage.answer = some (.data 201 result) ∧
      result.nft = nft := by
  cases sound with
  | idle | minting | saving => simp [Stage.document, Stage.answer]
  | unminted | lost => simp [Stage.document, Stage.answer, failed, Answer.body]
  | refused answer refused =>
    obtain ⟨status, text, rfl, _⟩ := callOf_error refused
    simp [Stage.document, Stage.answer, Answer.body]
  | recorded => simp [Stage.document, Stage.answer, Answer.body]

/-- The documents are those that were there and those that requests were answered with. -/
theorem Account.mem_documents (account : Account mongoose ethers requests start events s)
    {nft : NFT} : nft ∈ s.store.documents.rows ↔ nft ∈ start.documents.rows ∨
      ∃ key result, (s.stage key).answer = some (.data 201 result) ∧ result.nft = nft := by
  refine account.saved.mem_log.trans (or_congr_right (exists_congr fun key => ?_))
  exact (account.sound key).document_iff

/-- Whatever the order of the steps, a collection has the tokens it had and those minted since, in
their order. A request whose transaction succeeded has one of them, with its own URI, and no two
requests have the same. Collections are taken to number their tokens as they come, also those that
others mint. -/
theorem tokens_exact [DecidableEq κ]
    (ran : run (step mongoose ethers requests) (State.initial κ start) events = some s) :
    (∀ collection, s.store.minted collection =
      start.minted collection ++ tokenURIs ethers requests collection events) ∧
    (∀ key, (s.stage key).token.isSome = true ↔
      .mine key ∈ events ∧ (mintedBy ethers (requests key)).isSome = true) ∧
    (∀ key collection number, (s.stage key).token = some (collection, number) →
      start.supply collection < number ∧
        ∃ tokenURI, mintedBy ethers (requests key) = some (collection, tokenURI) ∧
          s.store.Holds collection number tokenURI) ∧
    ∀ first second token, (s.stage first).token = some token →
      (s.stage second).token = some token → first = second := by
  have account := account ran
  exact ⟨account.minted, account.given,
    fun key collection number token =>
      ⟨account.later key collection number token, (account.sound key).holds token⟩, account.own⟩

/-- The table keeps the numbers of all documents apart. -/
theorem Account.distinct (account : Account mongoose ethers requests start events s) :
    (start.documents.rows.map NFT.tokenId ++
      ((documents κ).entries s events).map NFT.tokenId).Nodup := by
  have rows : s.store.documents.rows = _ := account.saved.log
  have unique := s.store.documents.unique
  rwa [rows, List.map_append] at unique

/-- A document that was saved has a number that was new. -/
theorem Account.fresh (account : Account mongoose ethers requests start events s) {key : κ}
    {nft : NFT} (saved : (s.stage key).document = some nft) :
    nft.tokenId ∉ start.documents.rows.map NFT.tokenId := by
  intro held
  have member : nft.tokenId ∈ ((documents κ).entries s events).map NFT.tokenId :=
    List.mem_map_of_mem (account.saved.mem_entries.mpr ⟨key, saved⟩)
  exact List.disjoint_of_nodup_append account.distinct held member

/-- Two requests that saved documents have tokens with different numbers, in whatever
collections. -/
theorem Account.apart (account : Account mongoose ethers requests start events s)
    {first second : κ} {nft other : NFT} (different : first ≠ second)
    (saved : (s.stage first).document = some nft)
    (alsoSaved : (s.stage second).document = some other) : nft.tokenId ≠ other.tokenId :=
  account.saved.apart (List.nodup_append.mp account.distinct).2.1 different saved alsoSaved

/-- What a document of the number needs, whatever other requests do: a name and a description
that the schema takes, a number that can be read, and a database that answers. -/
structure Savable (mongoose : Mongoose) (request : NFTRequest) (number : Nat) : Prop where
  storable : Storable mongoose (nftData request.fields request.file)
  safe : number ≤ MAX_SAFE_INTEGER
  reachable : request.replies.database = .ok ()

/-- How a request is answered. It is refused exactly if the controller does not accept its body.
It succeeds exactly if it has a token that can be saved and no document was there with the
number of this token, and none is of another request; of the requests whose tokens have the
same number, in whatever collections, at most one succeeds. -/
theorem answers_decided [DecidableEq κ]
    (ran : run (step mongoose ethers requests) (State.initial κ start) events = some s) (key : κ)
    (answer : Answer MintResult) (answered : (s.stage key).answer = some answer) :
    (answer.status = some 400 ↔ (requests key).user.isSome = true ∧
      readable (requests key).body = true ∧ ¬ Accepted (requests key).fields) ∧
    (answer.status = some 201 ↔ ∃ collection number,
      (s.stage key).token = some (collection, number) ∧
        Savable mongoose (requests key) number ∧
        number ∉ start.documents.rows.map NFT.tokenId ∧
        ∀ other result, other ≠ key → (s.stage other).answer = some (.data 201 result) →
          result.tokenId ≠ number) ∧
    (answer.status = some 400 ∨ answer.status = some 201 ∨ answer.status = some 500) := by
  have account := account ran
  have known := account.sound key
  generalize stage : s.stage key = found at known answered
  cases known with
  | idle | minting | saving => cases answered
  | refused answer refused =>
    cases answered
    obtain ⟨status, text, rfl, ⟨rfl, user, read, unaccepted⟩ | ⟨rfl, unread⟩⟩ := callOf_error refused
    · simp [Answer.status, user, read, unaccepted, Stage.token]
    · refine ⟨?_, by simp [Answer.status, Stage.token], .inr (.inr rfl)⟩
      simp only [Answer.status, Option.some.injEq, Nat.reduceEqDiff, false_iff]
      rintro ⟨user, read, _⟩
      exact unread ⟨user, read⟩
  | unminted call message admitted unminted =>
    cases answered
    obtain ⟨creatorAddress, _, accepted, _⟩ := callOf_ok.mp admitted
    simp [failed, Answer.status, Stage.token, accepted]
  | lost call prepared transactionHash number message mints holds unrecordable =>
    cases answered
    obtain ⟨creatorAddress, _, accepted, rfl⟩ := callOf_ok.mp mints.admitted
    refine ⟨by simp [failed, Answer.status, accepted], ?_, .inr (.inr rfl)⟩
    simp only [failed, Answer.status, Option.some.injEq, Nat.reduceEqDiff, false_iff]
    rintro ⟨collection, same, token, savable, unheld, alone⟩
    cases token
    rcases unrecordable with unsavable | held
    · exact unsavable ⟨savable.storable, savable.safe, savable.reachable⟩
    · obtain ⟨nft, member, numbered⟩ := List.mem_map.mp held
      rcases account.saved.mem_log.mp member with before | ⟨other, left⟩
      · exact unheld (numbered ▸ List.mem_map_of_mem before)
      · obtain ⟨result, succeeded, rfl⟩ := (account.sound other).document_iff.mp left
        obtain ⟨_, _, _, agrees⟩ := (account.sound other).agrees succeeded
        refine alone other result ?_ succeeded (agrees.number.symm.trans numbered)
        rintro rfl
        rw [stage] at succeeded
        cases succeeded
  | recorded call prepared transactionHash nft mints tokenId holds recorded =>
    cases answered
    obtain ⟨creatorAddress, _, accepted, rfl⟩ := callOf_ok.mp mints.admitted
    have saved : (s.stage key).document = some nft := by
      rw [stage]
      rfl
    have number : nft.tokenId = tokenId := recorded.number
    refine ⟨by simp [Answer.status, accepted], iff_of_true rfl ?_, .inr (.inl rfl)⟩
    refine ⟨_, tokenId, rfl, ⟨recorded.storable, recorded.safe, recorded.reachable⟩,
      number ▸ account.fresh saved, ?_⟩
    intro other result different succeeded
    have alsoSaved := (account.sound other).document_iff.mpr ⟨result, succeeded, rfl⟩
    obtain ⟨_, _, _, agrees⟩ := (account.sound other).agrees succeeded
    rw [← agrees.number, ← number]
    exact account.apart different alsoSaved saved

/-- A document is found by its collection and its number, and by nothing else. -/
theorem findOne_iff {backend : Backend} {collectionAddress : String} {tokenId : Nat} {nft : NFT} :
    findOne backend collectionAddress tokenId = some nft ↔
      nft ∈ backend.documents.rows ∧ nft.collectionAddress = collectionAddress ∧
        nft.tokenId = tokenId := by
  constructor
  · intro found
    have selected := List.find?_some (show List.find? _ _ = some nft from found)
    exact ⟨List.mem_of_find?_eq_some found, of_decide_eq_true selected⟩
  · rintro ⟨member, rfl, rfl⟩
    apply Table.find?_eq member
    · simp
    · intro other met
      exact (of_decide_eq_true met).2

/-- A path is answered with a document if it names its collection and its number. -/
theorem getNFTMetadata_data {mongoose : NFTMongoose} {backend : Backend}
    {collectionAddress tokenId : String} {nft : NFT} :
    getNFTMetadata mongoose backend (.ok ()) collectionAddress tokenId = .data 200 nft ↔
      mongoose.castNumber tokenId = .ok (some nft.tokenId) ∧
        nft.collectionAddress = collectionAddress ∧ nft ∈ backend.documents.rows := by
  unfold getNFTMetadata
  cases cast : mongoose.castNumber tokenId with
  | error message => simp [Except.mapError, bind, Except.bind]
  | ok number =>
    cases number with
    | none => simp [Except.mapError, bind, Except.bind]
    | some number =>
      have stored := @findOne_iff backend collectionAddress number nft
      unfold NFTService.getNFTMetadata
      cases found : findOne backend collectionAddress number with
      | none =>
        rw [found] at stored
        refine iff_of_false (by simp [Except.mapError, bind, Except.bind, found]) ?_
        rintro ⟨same, address, member⟩
        have selected := stored.mpr ⟨member, address, (Option.some.inj (Except.ok.inj same)).symm⟩
        cases selected
      | some other =>
        rw [found] at stored
        simp only [Except.mapError, bind, Except.bind, pure, Except.pure, found, Except.ok.injEq,
          Option.some.injEq, Answer.data.injEq, true_and]
        rw [Option.some.injEq] at stored
        rw [stored, eq_comm (a := number)]
        rw [← and_rotate, and_congr_right_iff]
        exact fun _ => and_comm

/-- What is served. Whatever the order of the steps, a path gets a document exactly if it was
there, or a request was answered with it, and the path names its collection and its number;
any other is not found. So what a request was answered with is served under its number. -/
theorem served_exact [DecidableEq κ] (mongoose : NFTMongoose)
    (ran : run (step mongoose.toMongoose ethers requests) (State.initial κ start) events = some s) :
    (∀ collectionAddress tokenId nft,
      getNFTMetadata mongoose s.store (.ok ()) collectionAddress tokenId = .data 200 nft ↔
        mongoose.castNumber tokenId = .ok (some nft.tokenId) ∧
          nft.collectionAddress = collectionAddress ∧
          (nft ∈ start.documents.rows ∨
            ∃ key result, (s.stage key).answer = some (.data 201 result) ∧ result.nft = nft)) ∧
      (∀ collectionAddress tokenId,
        (∃ nft, getNFTMetadata mongoose s.store (.ok ()) collectionAddress tokenId =
          .data 200 nft) ∨
        ∃ text, getNFTMetadata mongoose s.store (.ok ()) collectionAddress tokenId =
          .message 404 text) ∧
      ∀ key result, (s.stage key).answer = some (.data 201 result) →
        getNFTMetadata mongoose s.store (.ok ()) (requests key).collectionAddress
          (toString result.tokenId) = .data 200 result.nft := by
  have account := account ran
  refine ⟨?_, ?_, ?_⟩
  · intro collectionAddress tokenId nft
    rw [getNFTMetadata_data, account.mem_documents]
  · intro collectionAddress tokenId
    unfold getNFTMetadata
    dsimp only
    split
    · exact .inl ⟨_, rfl⟩
    · exact .inr ⟨_, rfl⟩
  · intro key result answered
    obtain ⟨_, _, stored, agrees⟩ := (account.sound key).agrees answered
    rw [getNFTMetadata_data, agrees.number]
    exact ⟨mongoose.castNumber_toString _ agrees.safe, agrees.address, stored⟩

end Documents

section Sequential

variable [DecidableEq κ] {mongoose : Mongoose} {ethers : Ethers} {requests : κ → NFTRequest}

omit [DecidableEq κ] in
/-- After the mint, `mintNFT` reads the number and saves the document. -/
theorem perform_minted {call : Call} {prepared : Prepared} {transactionHash : String}
    (backend : Backend)
    (prepares : prepare ethers call.collectionAddress call.nftData call.creatorAddress
      call.replies = .ok prepared)
    (succeeds : call.replies.mint prepared.tokenURI = .ok transactionHash) :
    perform mongoose ethers call backend =
      match ethers.toNumber (backend.supply prepared.collectionContract + 1) with
      | .error message => (.error ("Failed to mint NFT: " ++ message),
          backend.push prepared.collectionContract prepared.tokenURI)
      | .ok tokenId =>
        match exec (NFTService.save mongoose call.replies
            (fields call.collectionAddress call.nftData call.creatorAddress prepared tokenId))
            (backend.push prepared.collectionContract prepared.tokenURI) with
        | (.error message, after) => (.error ("Failed to mint NFT: " ++ message), after)
        | (.ok nft, after) => (.ok ⟨true, tokenId, prepared.tokenURI, transactionHash, nft⟩, after) := by
  unfold perform NFTService.mintNFT
  simp only [exec_adapt, exec_bind, exec_lift, exec_mint, exec_pure, prepares, succeeds]
  cases ethers.toNumber (backend.supply prepared.collectionContract + 1) with
  | error message => rfl
  | ok tokenId =>
    dsimp only
    cases exec (NFTService.save mongoose call.replies
        (fields call.collectionAddress call.nftData call.creatorAddress prepared tokenId))
        (backend.push prepared.collectionContract prepared.tokenURI) with
    | mk result after => cases result <;> rfl

/-- A request whose steps follow each other is answered as `mintNFT` says, and leaves what it
says. So every request can be finished, whatever others have done. Proof: by how far the request
gets. Each step is possible from where the one before it led, and together they do what `mintNFT`
computes at once. -/
theorem uninterrupted (s : State κ) (key : κ) (idle : s.stage key = .idle) :
    ∃ events token, (∀ event ∈ events, event.key = some key) ∧
      run (step mongoose ethers requests) s events = some (s.enter key
        (.answered (mintNFT mongoose ethers (requests key) s.store).1 token,
          (mintNFT mongoose ethers (requests key) s.store).2)) := by
  have arrives : step mongoose ethers requests s (.arrive key) =
      some (s.enter key (arrive ethers (requests key), s.store)) := by
    rw [step, idle]
  cases admitted : callOf (requests key) with
  | error answer =>
    refine ⟨[.arrive key], none, by simp [Event.key], ?_⟩
    rw [run_cons arrives, arrive, mintNFT, admitted]
    rfl
  | ok call =>
    cases prepares : prepare ethers call.collectionAddress call.nftData call.creatorAddress
        call.replies with
    | error message =>
      have arrived : arrive ethers (requests key) = .answered (failed message) none := by
        simp only [arrive, admitted, prepares]
      refine ⟨[.arrive key], none, by simp [Event.key], ?_⟩
      rw [run_cons arrives, arrived, mintNFT, admitted]
      dsimp only
      rw [perform_stopped s.store prepares]
      rfl
    | ok prepared =>
      have arrived : arrive ethers (requests key) = .minting call prepared := by
        simp only [arrive, admitted, prepares]
      rw [arrived] at arrives
      have mines : step mongoose ethers requests (s.enter key (.minting call prepared, s.store))
          (.mine key) = some (s.enter key (mine ethers call prepared s.store)) := by
        simp [step]
      cases succeeds : call.replies.mint prepared.tokenURI with
      | error message =>
        refine ⟨[.arrive key, .mine key], none, by simp [Event.key], ?_⟩
        rw [run_cons arrives, run_cons mines, mine, succeeds, mintNFT, admitted]
        dsimp only
        rw [perform_unminted s.store prepares succeeds]
        rfl
      | ok transactionHash =>
        have whole := @perform_minted mongoose ethers call prepared transactionHash s.store
          prepares succeeds
        simp only [mine, succeeds, exec_mint] at mines
        cases number : ethers.toNumber (s.store.supply prepared.collectionContract + 1) with
        | error message =>
          simp only [number] at mines whole
          refine ⟨[.arrive key, .mine key], some (prepared.collectionContract,
            s.store.supply prepared.collectionContract + 1), by simp [Event.key], ?_⟩
          rw [run_cons arrives, run_cons mines, mintNFT, admitted]
          dsimp only
          rw [whole]
          rfl
        | ok tokenId =>
          simp only [number] at mines whole
          have saves : step mongoose ethers requests (s.enter key
              (.saving call prepared transactionHash tokenId,
                s.store.push prepared.collectionContract prepared.tokenURI)) (.save key) =
              some (s.enter key (save mongoose call prepared transactionHash tokenId
                (s.store.push prepared.collectionContract prepared.tokenURI))) := by
            simp [step]
          refine ⟨[.arrive key, .mine key, .save key],
            some (prepared.collectionContract, tokenId), by simp [Event.key], ?_⟩
          rw [run_cons arrives, run_cons mines, run_cons saves, save, mintNFT, admitted]
          dsimp only
          rw [whole]
          cases exec (NFTService.save mongoose call.replies
              (fields call.collectionAddress call.nftData call.creatorAddress prepared tokenId))
              (s.store.push prepared.collectionContract prepared.tokenURI) with
          | mk result after => cases result <;> rfl

end Sequential

section Sample

/-- Whether a request has not arrived. -/
def Stage.isIdle : Stage → Bool
  | .idle => true
  | .minting _ _ | .saving _ _ _ _ | .answered _ _ => false

/-- A request that has not arrived can be told from its stage. -/
theorem Stage.isIdle_iff {stage : Stage} : stage.isIdle = true ↔ stage = .idle := by
  cases stage <;> simp [Stage.isIdle]

/-- Mongoose on the values of the sample. Texts of digits are cast to numbers. -/
def sampleNFTMongoose : NFTMongoose where
  toMongoose := sampleMongoose
  castNumber text :=
    if text.toList.all Char.isDigit then .ok (some (Nat.ofDigitChars 10 text.toList 0))
    else .error "Cast to Number failed"
  castNumber_toString number _ := by
    have digits : (toString number).toList.all Char.isDigit = true := by
      rw [Nat.toString_eq_repr, Nat.toList_repr, List.all_eq_true]
      exact fun c member => Nat.isDigit_of_mem_toDigits (by decide) (by decide) member
    rw [if_pos digits, Nat.toString_eq_repr, Nat.toList_repr, Nat.ofDigitChars_ten_toDigits]

/-- A request with an image in its body and a file. -/
def sampleMint (collectionAddress metadataHash : String) : NFTRequest where
  collectionAddress := collectionAddress
  body := .object [("name", .string "Dragon"), ("image", .string "dragon.png")]
  user := some "0x9999999999999999999999999999999999999999"
  file := some [0x89]
  replies := (sampleCall collectionAddress metadataHash).replies

/-- Three mints, the last two in one collection, and a request with a file alone. -/
def sampleMints (key : Fin 4) : NFTRequest :=
  match key with
  | 0 => sampleMint "0x1111111111111111111111111111111111111111" "QmFirst"
  | 1 => sampleMint "0x2222222222222222222222222222222222222222" "QmSecond"
  | 2 => sampleMint "0x2222222222222222222222222222222222222222" "QmThird"
  | 3 => { sampleMint "0x1111111111111111111111111111111111111111" "QmFourth" with
      body := .object [("name", .string "Dragon")] }

/-- The first two requests overtake each other, and somebody else mints in between. -/
def sampleSchedule : List (Event (Fin 4)) :=
  [.arrive 0, .arrive 1, .mintedElsewhere firstCollection "ipfs://QmOther", .mine 0, .mine 1,
    .arrive 3, .save 1, .arrive 2, .save 0, .mine 2, .save 2]

/-- The state after the sample. -/
def sampleRun : Option (State (Fin 4)) :=
  run (step sampleMongoose sampleEthers sampleMints) (State.initial (Fin 4) emptyBackend)
    sampleSchedule

/-- Every step of the schedule is possible. -/
theorem sampleRun_runs : ∃ s, sampleRun = some s :=
  Option.isSome_iff_exists.mp (by decide +kernel)

/-- Both collections have the tokens of the requests behind those of others, and no two requests
have the same. -/
theorem tokens_exact_sample : ∃ s, sampleRun = some s ∧
    s.store.minted firstCollection = ["ipfs://QmOther", "ipfs://QmFirst"] ∧
    s.store.minted secondCollection = ["ipfs://QmSecond", "ipfs://QmThird"] ∧
    ∀ first second token, (s.stage first).token = some token →
      (s.stage second).token = some token → first = second := by
  obtain ⟨s, ran⟩ := sampleRun_runs
  obtain ⟨minted, _, _, own⟩ := tokens_exact ran
  refine ⟨s, ran, ?_, ?_, own⟩
  · rw [minted]
    decide +kernel
  · rw [minted]
    decide +kernel

/-- How the requests of the sample end: the third has a token, but the first has one of its
number. -/
theorem sampleRun_ends {s : State (Fin 4)} (ran : sampleRun = some s) :
    (List.finRange 4).map (fun key => ((s.stage key).token.map Prod.snd,
        (s.stage key).answer.bind Answer.status)) =
      [(some 2, some 201), (some 1, some 201), (some 2, some 500), (none, some 400)] := by
  have ends : sampleRun.map (fun s => (List.finRange 4).map fun key =>
        ((s.stage key).token.map Prod.snd, (s.stage key).answer.bind Answer.status)) =
      some [(some 2, some 201), (some 1, some 201), (some 2, some 500), (none, some 400)] := by
    decide +kernel
  rw [ran] at ends
  exact Option.some.inj ends

/-- The first request succeeds since no other that succeeded has its number; the third has a
token, but the number is taken by another collection's. -/
theorem answers_decided_sample : ∃ s, sampleRun = some s ∧
    (List.finRange 4).map (fun key => (s.stage key).answer.bind Answer.status) =
      [some 201, some 201, some 500, some 400] ∧
    ∃ collection number, (s.stage 0).token = some (collection, number) ∧
      ∀ other result, other ≠ 0 → (s.stage other).answer = some (.data 201 result) →
        result.tokenId ≠ number := by
  obtain ⟨s, ran⟩ := sampleRun_runs
  have ends := sampleRun_ends ran
  have statuses := congrArg (List.map Prod.snd) ends
  rw [List.map_map] at statuses
  have first : (s.stage 0).answer.bind Answer.status = some 201 :=
    congrArg Prod.snd (List.cons.inj ends).1
  obtain ⟨answer, answered, status⟩ := Option.bind_eq_some_iff.mp first
  obtain ⟨_, succeeds, _⟩ := answers_decided ran 0 answer answered
  obtain ⟨collection, number, token, _, _, alone⟩ := succeeds.mp status
  exact ⟨s, ran, statuses, collection, number, token, alone⟩

/-- The document of the second request is found under its path. It is served under the number one,
since its collection began with it. -/
theorem served_exact_sample : ∃ s nft, sampleRun = some s ∧
    getNFTMetadata sampleNFTMongoose s.store (.ok ())
      "0x2222222222222222222222222222222222222222" "1" = .data 200 nft ∧
    nft.tokenURI = "ipfs://QmSecond" := by
  obtain ⟨s, ran⟩ := sampleRun_runs
  have ends : sampleRun.map (fun s => (s.stage 1).answer.bind fun answer =>
      answer.body.map fun result => (answer.status, result.tokenId, result.nft.tokenURI)) =
        some (some (some 201, 1, "ipfs://QmSecond")) := by
    decide +kernel
  rw [ran] at ends
  obtain ⟨answer, answered, shown⟩ := Option.bind_eq_some_iff.mp (Option.some.inj ends)
  cases answer with
  | message | unanswered | thrown => cases shown
  | data status result =>
    have facts := Option.some.inj shown
    simp only [Answer.status, Prod.mk.injEq, Option.some.injEq] at facts
    obtain ⟨rfl, number, tokenURI⟩ := facts
    obtain ⟨_, _, served⟩ := served_exact sampleNFTMongoose ran
    have answer := served 1 result answered
    rw [number] at answer
    exact ⟨s, result.nft, ran, answer, tokenURI⟩

/-- The state after part of the sample: somebody else minted in the first collection, the second
request has its document, and the first waits to save its own. -/
def overtaken : Option (State (Fin 4)) :=
  run (step sampleMongoose sampleEthers sampleMints) (State.initial (Fin 4) emptyBackend)
    [.arrive 0, .arrive 1, .mintedElsewhere firstCollection "ipfs://QmOther", .mine 0, .mine 1,
      .save 1]

/-- What of that state, and of the answer to the third request there, is decided by running it. -/
theorem overtaken_answer :
    overtaken.map (fun s =>
      ((s.stage 2).isIdle, (mintNFT sampleMongoose sampleEthers (sampleMints 2) s.store).1.status,
        (mintNFT sampleMongoose sampleEthers (sampleMints 2) s.store).2.minted secondCollection,
        (mintNFT sampleMongoose sampleEthers (sampleMints 2) s.store).2.documents.rows.map
          NFT.tokenURI)) =
      some (true, some 201, ["ipfs://QmSecond", "ipfs://QmThird"],
        ["ipfs://QmSecond", "ipfs://QmThird"]) := by
  decide +kernel

/-- From that state the third request can be finished: it mints the second token of its collection
and has its document saved, while the first request still waits. So it is the first that will lose
its document. -/
theorem uninterrupted_sample : ∃ s events after, overtaken = some s ∧
    (∀ event ∈ events, event.key = some 2) ∧
    run (step sampleMongoose sampleEthers sampleMints) s events = some after ∧
    (after.stage 2).answer.bind Answer.status = some 201 ∧
    after.store.minted secondCollection = ["ipfs://QmSecond", "ipfs://QmThird"] ∧
    after.store.documents.rows.map NFT.tokenURI = ["ipfs://QmSecond", "ipfs://QmThird"] := by
  obtain ⟨s, reached, facts⟩ := Option.map_eq_some_iff.mp overtaken_answer
  simp only [Prod.mk.injEq] at facts
  obtain ⟨idle, status, minted, documents⟩ := facts
  obtain ⟨events, token, own, ran⟩ := uninterrupted s 2 (Stage.isIdle_iff.mp idle)
  refine ⟨s, events, _, reached, own, ran, ?_, minted, documents⟩
  rw [Shared.enter_stage]
  exact status

end Sample

end NFTController

end OpenBeach
