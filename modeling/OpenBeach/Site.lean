import OpenBeach.ChainView
import OpenBeach.MintAnswers

/-!
# Requests and the chain together

The requests to mint and the chain, as one system. The service was written for collections
that have a creator, mint for a URI and tell the number in an event; the collections of this
repository do neither, so how a request reaches them is a parameter, and that it reaches
their `mint` an assumption with a name. Everything else on chain may happen between any two
steps of requests. The model of the backend follows, so what requests were answered is true
of the chain.
-/

namespace OpenBeach

open Function NestedCalls Services Schedules UniqueKeys Handlers NFTService

namespace NFTController

/-- The calls of the chain so far, the documents, and how far each request got. The chain is the
whole model of both contracts, with all that others do there. -/
structure Site (κ : Type) where
  moves : List (Move Action)
  documents : Table NFT.tokenId
  stage : κ → Stage

/-- What a request knows once its token is minted. The service reads the number off the answer and
converts it to a JavaScript number. -/
def told (ethers : Ethers) (call : Call) (prepared : Prepared) (transactionHash : String)
    (tokenId : UInt256) : Stage :=
  match ethers.toNumber tokenId.toNat with
  | .error message => .answered (failed message) (some (prepared.collectionContract, tokenId.toNat))
  | .ok number => .saving call prepared transactionHash number

/-- How the service reaches a collection: the call that its `mint(tokenURI)` becomes for a
recipient, and the number that `NFTMinted` tells of what the call left. The repository's
`NFTCollection` offers no `creator()`, no `mint(string)` and no `NFTMinted`, so neither can be
read off the source. -/
structure MintBinding where
  mint (w : World) (collection recipient : Address) (tokenURI : String) : Action
  tokenId (after : World) (collection : Address) : Option UInt256

/-- The assumption under which requests mint at all: somebody sends the collection's own `mint`, and
the event tells the number of the token that it created. Who sends it is left open, and so is
whether the call succeeds. -/
structure MintBinding.Assumed (binding : MintBinding) : Prop where
  mint : ∀ w collection recipient tokenURI, ∃ sender,
    binding.mint w collection recipient tokenURI =
      .collection sender collection (.mint recipient (bytes tokenURI))
  tokenId : ∀ after collection s, after.deployed collection = some s →
    binding.tokenId after collection = some s.totalSupply

/-- A request takes its next step, or the chain goes on without it. A mint is for an account. -/
inductive Site.Event (κ : Type) where
  | arrive (key : κ)
  | mine (key : κ) (recipient : Address)
  | save (key : κ)
  | chain (later : List (Move Action))

section Steps

variable (deployment : Deployment) (binding : MintBinding) (mongoose : Mongoose) (ethers : Ethers)
variable {κ : Type} [DecidableEq κ] (requests : κ → NFTRequest)

/-- The mint of a request, if its transaction succeeds: the call is executed on the chain as it is
now, and runs to its end. A recipient that is a contract would be called back, so the mint is
for an account that is none. -/
def Site.mint (site : Site κ) (key : κ) (call : Call) (prepared : Prepared)
    (transactionHash : String) (recipient : Address) : Option (Site κ) :=
  let action := binding.mint (deployment.world site.moves) prepared.collectionContract recipient
    prepared.tokenURI
  match execute deployment.address action (deployment.world site.moves) with
  | .ok (after, none) =>
    (binding.tokenId after prepared.collectionContract).map fun tokenId =>
      { site with
        moves := site.moves ++ [.act action]
        stage := update site.stage key (told ethers call prepared transactionHash tokenId) }
  | .ok (_, some _) | .error _ => none

/-- What an event does, if it is possible. What others do on chain is one of the events, and may
be any number of moves. -/
def Site.step (site : Site κ) : Site.Event κ → Option (Site κ)
  | .arrive key =>
    match site.stage key with
    | .idle => some { site with stage := update site.stage key (arrive ethers (requests key)) }
    | _ => none
  | .mine key recipient =>
    match site.stage key with
    | .minting call prepared =>
      match call.replies.mint prepared.tokenURI with
      | .error message =>
        some { site with stage := update site.stage key (.answered (failed message) none) }
      | .ok transactionHash => site.mint deployment binding ethers key call prepared transactionHash recipient
    | _ => none
  | .save key =>
    match site.stage key with
    | .saving call prepared transactionHash tokenId =>
      -- A save does not read the tokens.
      let outcome := save mongoose call prepared transactionHash tokenId
        ⟨fun _ => [], site.documents⟩
      some { site with
        documents := outcome.2.documents
        stage := update site.stage key outcome.1 }
    | _ => none
  | .chain later =>
    let config := deployment.run (site.moves ++ later)
    if config.saved.isEmpty && config.current.pending.isEmpty then
      some { site with moves := site.moves ++ later }
    else none

end Steps

/-- Whatever others mint in an event has a text for its URI. Requests mint strings, so it is asked
of the others alone. -/
def Site.Event.Textual {κ : Type} : Site.Event κ → Prop
  | .chain later => Deployment.Textual later
  | .arrive _ | .mine _ _ | .save _ => True

/-- The model of the backend has the documents and the requests, and its lists tell the tokens on
chain. -/
structure Seen {κ : Type} (deployment : Deployment) (site : Site κ) (s : State κ) : Prop where
  settled : deployment.Settled site.moves
  textual : Deployment.Textual site.moves
  shows : (deployment.world site.moves).Shows s.store
  documents : s.store.documents = site.documents
  stage : s.stage = site.stage

section Simulation

variable {deployment : Deployment} {binding : MintBinding} {mongoose : Mongoose} {ethers : Ethers}
variable {κ : Type} {requests : κ → NFTRequest}

/-- A save reads and writes the documents alone. So the documents after a save do not depend on
what is minted meanwhile. -/
theorem save_documents {call : Call} {prepared : Prepared} {transactionHash : String}
    {tokenId : Nat} (backend : Backend) :
    save mongoose call prepared transactionHash tokenId backend =
      ((save mongoose call prepared transactionHash tokenId ⟨fun _ => [], backend.documents⟩).1,
        ⟨backend.minted, (save mongoose call prepared transactionHash tokenId
          ⟨fun _ => [], backend.documents⟩).2.documents⟩) := by
  unfold save NFTService.save
  simp only [exec_bind, exec_lift, exec_get]
  cases NFTSchema.validate mongoose (fields call.collectionAddress call.nftData
      call.creatorAddress prepared tokenId) call.replies.now with
  | error message => rfl
  | ok nft =>
    cases call.replies.database with
    | error message => rfl
    | ok reachable =>
      dsimp only
      cases backend.documents.insert nft with
      | none => rfl
      | some documents => rfl

variable [DecidableEq κ]

/-- What others mint, event by event. Every token the others minted is one event of the backend's
model. -/
theorem run_mintedElsewhere (s : State κ) (tokens : List (Address × String)) :
    run (step mongoose ethers requests) s
        (tokens.map fun token => .mintedElsewhere token.1 token.2) =
      some { s with store := s.store.pushAll tokens } := by
  induction tokens generalizing s with
  | nil => rfl
  | cons token rest inductionHypothesis =>
    have steps : step mongoose ethers requests s (.mintedElsewhere token.1 token.2) =
        some { s with store := s.store.push token.1 token.2 } := rfl
    rw [List.map_cons, run_cons steps, inductionHypothesis]
    rfl

/-- After a turn of a request, both systems have it at the same stage. Turns of other requests are
not touched. -/
theorem Seen.entered {site : Site κ} {s : State κ} (seen : Seen deployment site s) (key : κ)
    (outcome : Stage × Backend) :
    (s.enter key outcome).stage = update site.stage key outcome.1 := by
  rw [← seen.stage]
  rfl

/-- A step of a request that mints nothing. Such are the arrival and the save; the chain stays as
it was. -/
theorem Seen.enter {site : Site κ} {s : State κ} (seen : Seen deployment site s) (key : κ)
    {stage : Stage} {after : Backend} {documents : Table NFT.tokenId}
    (lists : after.minted = s.store.minted) (left : after.documents = documents) :
    Seen deployment ⟨site.moves, documents, update site.stage key stage⟩
      (s.enter key (stage, after)) where
  settled := seen.settled
  textual := seen.textual
  shows := seen.shows.congr lists
  documents := left
  stage := seen.entered key (stage, after)

/-- A mint that succeeds is one of the owner, for an account that is no contract, and the request is
told the number it gave. -/
theorem Site.mint_some (assumed : binding.Assumed) {site next : Site κ} {key : κ} {call : Call}
    {prepared : Prepared} {transactionHash : String} {recipient : Address}
    (mined : site.mint deployment binding ethers key call prepared transactionHash recipient =
      some next) :
    ∃ s tokenId, (deployment.world site.moves).deployed prepared.collectionContract = some s ∧
      (deployment.world site.moves).isOutside deployment.address s.owner = true ∧
      (deployment.world site.moves).isOutside deployment.address recipient = true ∧
      ((deployment.world site.moves).accounts recipient).hasCode = false ∧
      tokenId.toNat = s.totalSupply.toNat + 1 ∧
      next = { site with
        moves := Deployment.minting site.moves s.owner prepared.collectionContract recipient
          (bytes prepared.tokenURI)
        stage := update site.stage key (told ethers call prepared transactionHash tokenId) } := by
  unfold Site.mint at mined
  obtain ⟨sender, sent⟩ := assumed.mint (deployment.world site.moves) prepared.collectionContract
    recipient prepared.tokenURI
  rw [sent] at mined
  dsimp only at mined
  split at mined
  · next after executed =>
    obtain ⟨s, tokenId, found, rfl, owner, outside, plain, number, rfl⟩ :=
      deployment.mint_executed executed
    have left : (Deployment.mintedWorld (deployment.world site.moves) prepared.collectionContract
        recipient (bytes prepared.tokenURI) s tokenId).deployed prepared.collectionContract =
          some (Deployment.mintedStorage s recipient (bytes prepared.tokenURI) tokenId) :=
      update_self _ _ _
    rw [assumed.tokenId _ _ _ left] at mined
    exact ⟨s, tokenId, found, owner, outside, plain, number, (Option.some.inj mined).symm⟩
  · cases mined
  · cases mined

/-- The model of the backend follows a mint. The mint of the request is the same in both, and the
tokens that others minted before it are events of their own. -/
theorem Seen.mints (assumed : binding.Assumed) {site next : Site κ} {s : State κ}
    (seen : Seen deployment site s) {key : κ} {call : Call} {prepared : Prepared}
    {transactionHash : String} {recipient : Address}
    (waits : site.stage key = .minting call prepared)
    (succeeds : call.replies.mint prepared.tokenURI = .ok transactionHash)
    (mined : site.mint deployment binding ethers key call prepared transactionHash recipient =
      some next) :
    ∃ after, step mongoose ethers requests s (.mine key) = some after ∧
      Seen deployment next after := by
  obtain ⟨storage, tokenId, found, owner, outside, plain, number, rfl⟩ :=
    Site.mint_some assumed mined
  have steps : step mongoose ethers requests s (.mine key) =
      some (s.enter key (told ethers call prepared transactionHash tokenId,
        s.store.push prepared.collectionContract prepared.tokenURI)) := by
    simp only [step, seen.stage, waits, mine, succeeds, exec_mint, told,
      seen.shows.supply _ storage found, number]
    cases ethers.toNumber (storage.totalSupply.toNat + 1) <;> rfl
  have executed := @Deployment.mint_executes deployment site.moves _ recipient
    (bytes prepared.tokenURI) storage _ found owner outside plain number
  have asked : Deployment.Textual [.act (.collection storage.owner
      prepared.collectionContract (.mint recipient (bytes prepared.tokenURI)))] := by
    intro sender collection target tokenURI member
    cases List.mem_singleton.mp member
    exact ⟨_, rfl⟩
  refine ⟨_, steps, ?_, seen.textual.append asked, ?_, seen.documents, seen.entered key _⟩
  · exact deployment.settled_act site.moves seen.settled rfl executed
  · exact deployment.shows_mint site.moves seen.shows found owner outside plain number

/-- The model of the backend follows every event. One event of the site is one event of the model,
or one for each token that the others minted. -/
theorem Seen.follows (assumed : binding.Assumed) {site next : Site κ} {s : State κ} {event : Site.Event κ}
    (textual : event.Textual) (seen : Seen deployment site s)
    (stepped : site.step deployment binding mongoose ethers requests event = some next) :
    ∃ events after, run (step mongoose ethers requests) s events = some after ∧
      Seen deployment next after := by
  cases event with
  | arrive key =>
    simp only [Site.step] at stepped
    split at stepped
    · next idle =>
      cases stepped
      have steps : step mongoose ethers requests s (.arrive key) =
          some (s.enter key (arrive ethers (requests key), s.store)) := by
        rw [step, seen.stage, idle]
      exact ⟨[.arrive key], _, run_singleton.trans steps, seen.enter key rfl seen.documents⟩
    · cases stepped
  | mine key recipient =>
    simp only [Site.step] at stepped
    split at stepped
    · next call prepared waits =>
      split at stepped
      · next message fails =>
        cases stepped
        have steps : step mongoose ethers requests s (.mine key) =
            some (s.enter key (.answered (failed message) none, s.store)) := by
          simp only [step, seen.stage, waits, mine, fails]
        exact ⟨[.mine key], _, run_singleton.trans steps, seen.enter key rfl seen.documents⟩
      · next transactionHash succeeds =>
        obtain ⟨after, steps, left⟩ := seen.mints assumed waits succeeds stepped
        exact ⟨[.mine key], after, run_singleton.trans steps, left⟩
    · cases stepped
  | save key =>
    simp only [Site.step] at stepped
    split at stepped
    · next call prepared transactionHash tokenId waits =>
      cases stepped
      have saves := @save_documents mongoose call prepared transactionHash tokenId s.store
      rw [seen.documents] at saves
      have steps : step mongoose ethers requests s (.save key) =
          some (s.enter key (save mongoose call prepared transactionHash tokenId s.store)) := by
        simp only [step, seen.stage, waits]
      rw [saves] at steps
      exact ⟨[.save key], _, run_singleton.trans steps, seen.enter key rfl rfl⟩
    · cases stepped
  | chain later =>
    simp only [Site.step] at stepped
    split at stepped
    · next returned =>
      cases stepped
      rw [Bool.and_eq_true, List.isEmpty_iff, List.isEmpty_iff] at returned
      have whole := seen.textual.append textual
      have shown := deployment.shows_later site.moves seen.shows seen.settled later whole
      have kept := s.store.pushAll_documents
        (s.store.missed (deployment.world (site.moves ++ later)))
      exact ⟨_, _, run_mintedElsewhere s _, ⟨returned.1, returned.2⟩, whole, shown,
        kept.trans seen.documents, seen.stage⟩
    · cases stepped

/-- Requests and chain as one system. Whatever happens on chain between the steps of the
requests, the model of the backend can do what they do, with lists that tell what is on chain.
So every request that succeeded was answered with a token that is on chain, in the collection
it named, with the URI it was told, and no two with the same. -/
theorem answers_on_chain (assumed : binding.Assumed) (moves : List (Move Action)) (documents : Table NFT.tokenId)
    (settled : deployment.Settled moves) (textual : Deployment.Textual moves)
    (events : List (Site.Event κ)) (moreTextual : ∀ event ∈ events, event.Textual) (site : Site κ)
    (ran : run (Site.step deployment binding mongoose ethers requests) ⟨moves, documents, fun _ => .idle⟩
      events = some site) :
    (∃ minted modelled s, (deployment.world moves).Shows ⟨minted, documents⟩ ∧
      run (step mongoose ethers requests) (State.initial κ ⟨minted, documents⟩) modelled = some s ∧
        Seen deployment site s) ∧
    (∀ key result, (site.stage key).answer = some (.data 201 result) →
      ∃ collection s tokenId, ethers.contractAt (requests key).collectionAddress = .ok collection ∧
        (deployment.world site.moves).deployed collection = some s ∧
        tokenId.toNat = result.tokenId ∧ s.tokenURI tokenId = .ok (bytes result.tokenURI) ∧
        result.nft ∈ site.documents.rows) ∧
    ∀ first second token, (site.stage first).token = some token →
      (site.stage second).token = some token → first = second := by
  obtain ⟨minted, shows⟩ := deployment.exists_shows moves textual documents
  have related : Seen deployment (⟨moves, documents, fun _ => .idle⟩ : Site κ)
      (State.initial κ ⟨minted, documents⟩) := ⟨settled, textual, shows, rfl, rfl⟩
  have follows (before : Site κ) (event : Site.Event κ) (after : Site κ) (s : State κ)
      (textual : event.Textual) (seen : Seen deployment before s)
      (stepped : before.step deployment binding mongoose ethers requests event = some after) :=
    seen.follows assumed textual stepped
  obtain ⟨modelled, s, followed, seen⟩ := simulates follows related moreTextual ran
  have account := account followed
  refine ⟨⟨minted, modelled, s, shows, followed, seen⟩, ?_, ?_⟩
  · intro key result answered
    rw [← seen.stage] at answered
    obtain ⟨collection, _, stored, agrees⟩ := (account.sound key).agrees answered
    obtain ⟨storage, tokenId, found, number, spelled⟩ := seen.shows.told agrees.holds
    exact ⟨collection, storage, tokenId, agrees.contract, found, number, spelled,
      seen.documents ▸ stored⟩
  · rw [← seen.stage]
    exact account.own

end Simulation

section Sample

/-- The owner of the collection sends the mint, and the number is read off the supply. This is how
the repository's own contract would be called and read. -/
def ownerBinding : MintBinding where
  mint w collection recipient tokenURI :=
    .collection (((w.deployed collection).map NFTCollection.owner).getD 0) collection
      (.mint recipient (bytes tokenURI))
  tokenId after collection := (after.deployed collection).map NFTCollection.totalSupply

/-- A mint that the owner sends is one of the assumed kind. The call is a mint of the given text,
and the number is that of the last token. -/
theorem ownerBinding_assumed : ownerBinding.Assumed where
  mint w collection recipient tokenURI := ⟨_, rfl⟩
  tokenId after collection s found := by simp [ownerBinding, found]

/-- Account 11 creates the first collection. The address is the one under which the requests of
the sample name it. -/
def sampleCreation : List (Move Action) :=
  [.act (.marketplace ⟨11, 0⟩
    (.createCollection (bytes "Dragons") (bytes "DRG") [] (bytes "Art") firstCollection))]

/-- While a request waits, account 11 mints for 12; then the token of the request goes to 13. -/
def sampleEvents : List (Site.Event Unit) :=
  [.arrive (), .chain [.act (.collection 11 firstCollection (.mint 12 (bytes "ipfs://QmOther")))],
    .mine () 11, .chain [.act (.collection 11 firstCollection (.transferFrom 11 13 2))], .save ()]

/-- The state after the sample. One request mints a token, after others did something else on
chain. -/
def sampleSite : Option (Site Unit) :=
  run (Site.step Deployment.sample ownerBinding sampleMongoose sampleEthers
      fun _ => sampleMint "0x1111111111111111111111111111111111111111" "QmFirst")
    ⟨sampleCreation, Table.empty NFT.tokenId, fun _ => .idle⟩ sampleEvents

/-- The mint of account 11 is for a text. No other call of the sample mints. -/
theorem sampleEvents_textual : ∀ event ∈ sampleEvents, event.Textual := by
  intro event member
  simp only [sampleEvents, List.mem_cons, List.not_mem_nil, or_false] at member
  rcases member with rfl | rfl | rfl | rfl | rfl
  · trivial
  · intro sender collection recipient tokenURI member
    cases List.mem_singleton.mp member
    exact ⟨_, rfl⟩
  · trivial
  · intro sender collection recipient tokenURI member
    cases List.mem_singleton.mp member
  · trivial

/-- The request was answered with token 2, whose URI on chain is the one it was told. The token is
no longer with the account it was minted for. -/
theorem answers_on_chain_sample : ∃ site s tokenId, sampleSite = some site ∧
    (Deployment.sample.world site.moves).deployed firstCollection = some s ∧
    tokenId.toNat = 2 ∧ s.tokenURI tokenId = .ok (bytes "ipfs://QmFirst") := by
  have known : sampleSite.map (fun site => (site.stage ()).answer.bind fun answer =>
      answer.body.map fun result => (answer.status, result.tokenId, result.tokenURI)) =
        some (some (some 201, 2, "ipfs://QmFirst")) := by
    decide +kernel
  obtain ⟨site, ran, shown⟩ := Option.map_eq_some_iff.mp known
  obtain ⟨answer, answered, shown⟩ := Option.bind_eq_some_iff.mp shown
  cases answer with
  | message | unanswered | thrown => cases shown
  | data status result =>
    have facts := Option.some.inj shown
    simp only [Answer.status, Prod.mk.injEq, Option.some.injEq] at facts
    obtain ⟨rfl, number, tokenURI⟩ := facts
    have textual : Deployment.Textual sampleCreation := by
      intro sender collection recipient tokenURI member
      cases List.mem_singleton.mp member
    obtain ⟨_, onChain, _⟩ := answers_on_chain ownerBinding_assumed sampleCreation (Table.empty NFT.tokenId)
      ⟨by decide +kernel, by decide +kernel⟩ textual sampleEvents sampleEvents_textual site ran
    obtain ⟨collection, s, tokenId, contract, found, same, told, _⟩ := onChain () result answered
    have first : sampleEthers.contractAt "0x1111111111111111111111111111111111111111" =
        .ok firstCollection := by
      decide +kernel
    obtain rfl := Except.ok.inj (first.symm.trans contract)
    exact ⟨site, s, tokenId, ran, found, same.trans number, tokenURI ▸ told⟩

end Sample

end NFTController

end OpenBeach
