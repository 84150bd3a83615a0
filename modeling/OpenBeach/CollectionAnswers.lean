import Mathlib.Data.List.Sort
import OpenBeach.CollectionInterleavings

/-!
# What requests for collections are answered

A request is stopped by nothing but its own content, the services it met, and an address that
another document has. A request that fails may have created its collection on chain all the
same. What requests were answered with is listed.
-/

namespace OpenBeach

open Services Schedules Handlers CollectionService CollectionValidator

namespace CollectionController

section Answers

variable {κ : Type} {joi : Joi} {mongoose : CollectionMongoose}
  {quoted : String → Option String} {environment : NodeEnv} {requests : κ → CollectionRequest}
  {start : CollectionBackend} {events : List (Event κ)} {s : State κ}

/-- What an error is told as. Where the middleware answers nothing, there is no status either. -/
theorem Told.status {status : Nat} {answer : Answer CollectionDocument}
    (told : Told environment status answer) :
    (answer.status = some status ∧ environment ≠ .other) ∨
      (answer.status = none ∧ answer = .unanswered ∧ environment = .other) := by
  cases told with
  | message text answering => exact .inl ⟨rfl, answering⟩
  | nothing silent => exact .inr ⟨rfl, rfl, silent⟩

/-- Documents come with the answer of success. The status is that of a creation. -/
theorem Sound.document_iff {request : CollectionRequest} {state : CollectionBackend}
    {stage : Stage} {document : CollectionDocument}
    (sound : Sound joi mongoose environment request state stage) :
    stage.document = some document ↔ stage.answer = some (.data 201 document) := by
  cases sound with
  | idle | transacting | saving => simp [Stage.document, Stage.answer]
  | refused violation answer found told =>
    rw [told.document]
    cases told <;> simp [Stage.answer]
  | lost answer accepted told unrecorded =>
    rw [told.document]
    cases told <;> simp [Stage.answer]
  | recorded => simp [Stage.document, Stage.answer, Answer.body]

/-- The answer of success is about the request. Its document is the one that the schema makes of
the request. -/
theorem Sound.recordable {request : CollectionRequest} {state : CollectionBackend}
    {stage : Stage} {document : CollectionDocument}
    (sound : Sound joi mongoose environment request state stage)
    (answered : stage.answer = some (.data 201 document)) :
    ∃ address creator, request.Recordable mongoose address creator ∧
      document = request.document mongoose address creator := by
  cases sound with
  | idle | transacting | saving => cases answered
  | refused violation answer found told => cases told <;> cases answered
  | lost answer accepted told unrecorded => cases told <;> cases answered
  | recorded address creator passes recordable stored =>
    cases answered
    exact ⟨address, creator, recordable, rfl⟩

/-- An address that only documents of others keep from a request. -/
theorem Account.free (account : Account joi mongoose environment requests start events s)
    {address : String}
    (alone : start.indexed = true → mongoose.lowercase address ∉ start.addresses ∧
      ∀ other document, (s.stage other).answer = some (.data 201 document) →
        document.contractAddress ≠ mongoose.lowercase address) : s.store.Free mongoose address := by
  intro indexed held
  obtain ⟨unheld, others⟩ := alone (account.indexed.symm.trans indexed)
  rw [account.addresses] at held
  rcases List.mem_append.mp held with before | now
  · exact unheld before
  · obtain ⟨document, stored, same⟩ := List.mem_map.mp now
    obtain ⟨other, left⟩ := account.saved.mem_entries.mp stored
    exact others other document ((account.sound other).document_iff.mp left) same

/-- How a request is answered. It is refused exactly if the validator finds a violation. It is
recorded exactly if it passes and nothing behind the validator stops it, and neither a document
that was there nor that of another request has its address. Everything else is an internal
error, and in an environment that is neither development nor production errors are not
answered. -/
theorem requests_settled [DecidableEq κ]
    (ran : run (step joi mongoose quoted environment requests) (State.initial κ start) events =
      some s) (key : κ) (answer : Answer CollectionDocument)
    (answered : (s.stage key).answer = some answer) :
    (answer.status = some 400 ↔ environment ≠ .other ∧
      ∃ violation, validateCollection joi (requests key).body = some violation) ∧
    (answer.status = some 201 ↔ (requests key).Passes joi ∧ ∃ address creator,
      (requests key).Recordable mongoose address creator ∧
        (start.indexed = true → mongoose.lowercase address ∉ start.addresses ∧
          ∀ other document, other ≠ key → (s.stage other).answer = some (.data 201 document) →
            document.contractAddress ≠ mongoose.lowercase address)) ∧
    (answer.status = some 400 ∨ answer.status = some 201 ∨ answer.status = some 500 ∨
      answer = .unanswered ∧ environment = .other) := by
  have account := account ran
  have known := account.sound key
  generalize stage : s.stage key = found at known answered
  cases known with
  | idle | transacting | saving => cases answered
  | refused violation _ found told =>
    cases answered
    have stopped : ¬ (requests key).Passes joi := by
      intro passes
      rw [passes.accepted] at found
      cases found
    rcases told.status with ⟨status, answering⟩ | ⟨status, silent⟩
    · simp [status, answering, found, stopped]
    · simp [silent, stopped, Answer.status]
  | lost _ accepted told unrecorded =>
    cases answered
    have failed : ¬ ((requests key).Passes joi ∧ ∃ address creator,
        (requests key).Recordable mongoose address creator ∧
          (start.indexed = true → mongoose.lowercase address ∉ start.addresses ∧
            ∀ other document, other ≠ key → (s.stage other).answer = some (.data 201 document) →
              document.contractAddress ≠ mongoose.lowercase address)) := by
      rintro ⟨passes, address, creator, recordable, alone⟩
      refine unrecorded ⟨passes, address, creator, recordable, account.free fun indexed => ?_⟩
      refine ⟨(alone indexed).1, fun other document succeeded => ?_⟩
      refine (alone indexed).2 other document ?_ succeeded
      rintro rfl
      rw [stage] at succeeded
      cases told <;> cases succeeded
    rcases told.status with ⟨status, answering⟩ | ⟨status, silent⟩
    · refine ⟨?_, ?_, .inr (.inr (.inl status))⟩
      · simp [status, accepted]
      · rw [status]
        exact iff_of_false (by decide) failed
    · refine ⟨?_, ?_, .inr (.inr (.inr silent))⟩
      · simp [status, silent.2]
      · rw [status]
        exact iff_of_false (by decide) failed
  | recorded address creator passes recordable stored =>
    cases answered
    have saved : (s.stage key).document = some ((requests key).document mongoose address creator) := by
      rw [stage]
      rfl
    refine ⟨by simp [Answer.status, passes.accepted], ?_, .inr (.inl rfl)⟩
    refine iff_of_true rfl ⟨passes, address, creator, recordable, fun indexed => ?_⟩
    obtain ⟨distinct, new⟩ := account.distinct indexed
    refine ⟨new _ (account.saved.mem_entries.mpr ⟨key, saved⟩), ?_⟩
    intro other document different succeeded
    have alsoSaved := (account.sound other).document_iff.mpr succeeded
    exact account.saved.apart distinct different alsoSaved saved

/-- Whatever the order of the steps, the documents are those that were there and those the requests
were answered with, in the order they were saved; each tells what its request said, and the
address of the collection it created. The collections on chain are those of the requests
that passed, unless their transactions failed. -/
theorem records_exact [DecidableEq κ]
    (ran : run (step joi mongoose quoted environment requests) (State.initial κ start) events =
      some s) :
    s.store.documents = start.documents ++ (documents κ).entries s events ∧
    (∀ document, document ∈ s.store.documents ↔ document ∈ start.documents ∨
      ∃ key, (s.stage key).answer = some (.data 201 document)) ∧
    (∀ key document, (s.stage key).answer = some (.data 201 document) →
      ∃ address creator, (requests key).Recordable mongoose address creator ∧
        document = (requests key).document mongoose address creator) ∧
    s.store.created = start.created ++ events.flatMap (Event.mined requests) ∧
    ∀ key answer, (s.stage key).answer = some answer →
      (.transact key ∈ events ↔ (requests key).Passes joi) := by
  have account := account ran
  refine ⟨account.saved.log, ?_, ?_, account.created, ?_⟩
  · intro document
    refine account.saved.mem_log.trans (or_congr_right (exists_congr fun key => ?_))
    exact (account.sound key).document_iff
  · intro key document answered
    exact (account.sound key).recordable answered
  · intro key answer answered
    have past : (s.stage key).past = true := by
      cases stage : s.stage key with
      | answered => rfl
      | idle | transacting | saving =>
        rw [stage] at answered
        cases answered
    rw [account.transacted key, past]
    exact and_iff_left rfl

/-- Whatever the order of the steps, at any time all documents are listed, the newest first, and
each address once if the database has the index. The documents of one time may be listed in any
order, so it is a permutation that is claimed. -/
theorem listing_exact [DecidableEq κ]
    (ran : run (step joi mongoose quoted environment requests) (State.initial κ start) events =
      some s) :
    ∃ listed, getAllCollections mongoose quoted environment (.ok ()) s.store =
        .data 200 (listed.length, listed) ∧
      listed.Perm (start.documents ++ (documents κ).entries s events) ∧
      (∀ document, document ∈ listed ↔ document ∈ start.documents ∨
        ∃ key, (s.stage key).answer = some (.data 201 document)) ∧
      listed.Pairwise (fun first second => second.createdAt ≤ first.createdAt) ∧
      (start.indexed = true → start.addresses.Nodup →
        (listed.map CollectionDocument.contractAddress).Nodup) := by
  have account := account ran
  have sorted := mongoose.newestFirst_perm s.store.documents
  have log : s.store.documents = start.documents ++ (documents κ).entries s events :=
    account.saved.log
  refine ⟨_, rfl, ?_, ?_, mongoose.newestFirst_ordered _, ?_⟩
  · rw [← log]
    exact sorted
  · intro document
    refine sorted.mem_iff.trans (account.saved.mem_log.trans ?_)
    exact or_congr_right (exists_congr fun key => (account.sound key).document_iff)
  · intro indexed unique
    obtain ⟨distinct, new⟩ := account.distinct indexed
    refine (sorted.map CollectionDocument.contractAddress).nodup_iff.mpr ?_
    rw [log, List.map_append, List.nodup_append]
    refine ⟨unique, distinct, ?_⟩
    rintro address member _ now rfl
    obtain ⟨document, stored, rfl⟩ := List.mem_map.mp now
    exact new document stored member

end Answers

section Sequential

variable {κ : Type} [DecidableEq κ] {joi : Joi} {mongoose : CollectionMongoose}
  {quoted : String → Option String} {environment : NodeEnv} {requests : κ → CollectionRequest}

/-- A request that passes goes as far as its services let it. Each service ends it with an error
of its own, or lets it go on. -/
theorem exec_passes {request : CollectionRequest} {state : CollectionBackend}
    (passes : request.Passes joi) {userAddress : JsValue}
    (known : request.user = some userAddress) :
    exec (createCollection joi mongoose request) state =
      match request.replies.createCollection request.arguments with
      | .error message => (.error (failure message), state)
      | .ok logs =>
        match announced logs with
        | none =>
          (.error (failure "Collection creation event not found"), state.push request.arguments)
        | some address =>
          ((exec (CollectionService.save mongoose request.replies
              (request.handed address userAddress)) (state.push request.arguments)).1.mapError
                failure,
            (exec (CollectionService.save mongoose request.replies
              (request.handed address userAddress)) (state.push request.arguments)).2) := by
  unfold createCollection CollectionService.createCollection
  rw [passes.accepted, known]
  simp only [exec_adapt, exec_bind, exec_lift, property_ok passes.object, exec_transact,
    CollectionRequest.arguments]
  cases request.replies.createCollection
      [lookupField request.fields "name", lookupField request.fields "symbol",
        lookupField request.fields "category"] with
  | error message => rfl
  | ok logs =>
    dsimp only
    cases announced logs with
    | none => rfl
    | some address =>
      simp only [exec_bind, exec_lift]
      rfl

omit [DecidableEq κ] in
/-- A request that ends when it arrives changes nothing. There is nothing to wait for, so it does
not matter what others do. -/
theorem respond_stopped {request : CollectionRequest} {answer : Answer CollectionDocument}
    (mongoose : CollectionMongoose) (state : CollectionBackend)
    (arrived : arrive joi quoted environment request = .answered answer) :
    respond joi mongoose quoted environment request state = (answer, state) := by
  unfold arrive at arrived
  unfold respond createCollection
  cases accepted : validateCollection joi request.body with
  | some violation =>
    rw [accepted] at arrived
    cases arrived
    rfl
  | none =>
    cases user : request.user with
    | none =>
      rw [accepted, user] at arrived
      cases arrived
      rfl
    | some userAddress =>
      rw [accepted, user] at arrived
      unfold CollectionService.createCollection
      cases read : property request.body "name" with
      | error message =>
        rw [read] at arrived
        cases arrived
        simp only [exec_adapt, exec_bind, exec_lift]
        rfl
      | ok name =>
        rw [read] at arrived
        cases arrived

omit [DecidableEq κ] in
/-- After the transaction, the answer is that of the step that saves. -/
theorem respond_saved {request : CollectionRequest} {state : CollectionBackend}
    (passes : request.Passes joi) {userAddress : JsValue}
    (known : request.user = some userAddress) {logs : List (Option LogDescription)}
    (mined : request.replies.createCollection request.arguments = .ok logs)
    {collectionAddress : String} (announces : announced logs = some collectionAddress) :
    save mongoose quoted environment request userAddress collectionAddress
        (state.push request.arguments) =
      (.answered (respond joi mongoose quoted environment request state).1,
        (respond joi mongoose quoted environment request state).2) := by
  unfold respond save
  rw [exec_passes passes known, mined]
  dsimp only
  rw [announces]
  dsimp only
  cases exec (CollectionService.save mongoose request.replies
      (request.handed collectionAddress userAddress)) (state.push request.arguments) with
  | mk result after => cases result <;> rfl

/-- A request whose steps follow each other is answered as the controller says, and leaves what it
says. So every request can be finished, whatever others have done. Proof: by how far the request
gets. Each step is possible from where the one before it led, and together they do what the
controller computes at once. -/
theorem creation_uninterrupted (s : State κ) (key : κ) (idle : s.stage key = .idle) :
    ∃ events, (∀ event ∈ events, event.key = key) ∧
      run (step joi mongoose quoted environment requests) s events = some (s.enter key
        (.answered (respond joi mongoose quoted environment (requests key) s.store).1,
          (respond joi mongoose quoted environment (requests key) s.store).2)) := by
  have arrives : step joi mongoose quoted environment requests s (.arrive key) =
      some (s.enter key (arrive joi quoted environment (requests key), s.store)) := by
    rw [step, idle]
  have stops : ∀ answer, arrive joi quoted environment (requests key) = .answered answer →
      run (step joi mongoose quoted environment requests) s [.arrive key] = some (s.enter key
        (.answered (respond joi mongoose quoted environment (requests key) s.store).1,
          (respond joi mongoose quoted environment (requests key) s.store).2)) := by
    intro answer arrived
    rw [run_cons arrives, arrived, respond_stopped mongoose s.store arrived]
    rfl
  rcases arrive_cases joi quoted environment (requests key) with
    ⟨violation, _, arrived⟩ | ⟨_, _, err, arrived, _⟩ | ⟨userAddress, passes, known, arrived⟩
  · exact ⟨[.arrive key], by simp [Event.key], stops _ arrived⟩
  · exact ⟨[.arrive key], by simp [Event.key], stops _ arrived⟩
  · rw [arrived] at arrives
    have transacts : step joi mongoose quoted environment requests
        (s.enter key (.transacting userAddress, s.store)) (.transact key) = some (s.enter key
          (transact quoted environment (requests key) userAddress s.store)) := by
      simp [step]
    have whole := @exec_passes joi mongoose (requests key) s.store passes userAddress known
    unfold transact at transacts
    rw [exec_transact] at transacts
    cases mined : (requests key).replies.createCollection (requests key).arguments with
    | error message =>
      rw [mined] at transacts whole
      refine ⟨[.arrive key, .transact key], by simp [Event.key], ?_⟩
      rw [run_cons arrives, run_cons transacts, respond, whole]
      rfl
    | ok logs =>
      rw [mined] at transacts whole
      dsimp only at transacts whole
      cases announces : announced logs with
      | none =>
        rw [announces] at transacts whole
        refine ⟨[.arrive key, .transact key], by simp [Event.key], ?_⟩
        rw [run_cons arrives, run_cons transacts, respond, whole]
        rfl
      | some collectionAddress =>
        rw [announces] at transacts
        have saves : step joi mongoose quoted environment requests
            (s.enter key (.saving userAddress collectionAddress,
              s.store.push (requests key).arguments)) (.save key) = some (s.enter key
                (save mongoose quoted environment (requests key) userAddress collectionAddress
                  (s.store.push (requests key).arguments))) := by
          simp [step]
        refine ⟨[.arrive key, .transact key, .save key], by simp [Event.key], ?_⟩
        rw [run_cons arrives, run_cons transacts, run_cons saves,
          respond_saved passes known mined announces]
        rfl

end Sequential

section Sample

/-- Whether a request has not arrived. It is computable, so that schedules can be evaluated. -/
def Stage.isIdle : Stage → Bool
  | .idle => true
  | .transacting _ | .saving _ _ | .answered _ => false

/-- A request that has not arrived can be told from its stage. So the test can stand for the
equality in an evaluation. -/
theorem Stage.isIdle_iff {stage : Stage} : stage.isIdle = true ↔ stage = .idle := by
  cases stage <;> simp [Stage.isIdle]

/-- A validator that knows one kind of URI. The message of a violation is the name of its field. -/
def sampleJoi : Joi where
  isUri text := text.toList.take 8 = "https://".toList
  message violation := violation.label

/-- The order of the list. Documents of one time may stand either way round. -/
def NewerFirst (first second : CollectionDocument) : Prop := second.createdAt ≤ first.createdAt

/-- Which of two documents is newer can be evaluated, so the list can be sorted. -/
instance : DecidableRel NewerFirst := fun first second =>
  inferInstanceAs (Decidable (second.createdAt ≤ first.createdAt))

/-- Of two documents one is the newer, or they are of one time. -/
instance : Std.Total NewerFirst := ⟨fun first second => Nat.le_total second.createdAt first.createdAt⟩

/-- The order is transitive, as sorting wants it. -/
instance : IsTrans CollectionDocument NewerFirst :=
  ⟨fun _ _ _ first second => Nat.le_trans second first⟩

/-- Mongoose on the values of the sample. The documents of the list are sorted by their times. -/
def sampleCollectionMongoose : CollectionMongoose where
  toMongoose := NFTService.sampleMongoose
  castString_undefined _ := rfl
  lowercase := toLowerCase
  lowercase_empty _ := NFTService.toLowerCase_empty
  enumMessage path value := value ++ " is not a valid enum value for path " ++ path
  duplicateAddressMessage address := "E11000 duplicate key error dup key: " ++ address
  newestFirst documents := documents.insertionSort NewerFirst
  newestFirst_perm documents := List.perm_insertionSort NewerFirst documents
  newestFirst_ordered documents := List.pairwise_insertionSort NewerFirst documents

/-- A request for a collection of art that the chain and the database serve. The user is always
the same, and the address is what the event of the factory tells. -/
def sampleRequest (name address : String) (now : Nat) : CollectionRequest where
  body := .object [("name", .string name), ("symbol", .string "APE"), ("category", .string "art")]
  user := some (.string "0xA11CE")
  replies := {
    createCollection := fun _ => .ok [none, some ⟨"CollectionCreated", address⟩]
    database := .ok ()
    now }

/-- A collection, a blank name, a name that is too short, and the first address again. The last
one is a collection like the first, at an address of its own. -/
def sampleRequests (key : Fin 5) : CollectionRequest :=
  match key with
  | 0 => sampleRequest "Apes" "0xAbC" 1
  | 1 => sampleRequest "   " "0xDeF" 2
  | 2 => sampleRequest "Ab" "0x123" 3
  | 3 => sampleRequest "Cats" "0xabc" 4
  | 4 => sampleRequest "Dogs" "0x456" 5

/-- A backend with the index, in which nothing has happened. Later requests find in it what
earlier ones left. -/
def emptyCollections : CollectionBackend := ⟨[], [], true⟩

/-- The request for the first address again overtakes the first. The others run in between, each
up to its own answer. -/
def sampleSchedule : List (Event (Fin 5)) :=
  [.arrive 0, .arrive 3, .transact 0, .arrive 1, .transact 3, .save 3, .arrive 2, .save 0,
    .arrive 4, .transact 1, .transact 4, .save 1, .save 4]

/-- The state after the sample. The middleware answers as it does in production. -/
def sampleRun : Option (State (Fin 5)) :=
  run (step sampleJoi sampleCollectionMongoose (fun _ => none) .production sampleRequests)
    (State.initial (Fin 5) emptyCollections) sampleSchedule

/-- Every step of the schedule is possible. So the sample is a run, and the results apply to it. -/
theorem sampleRun_runs : ∃ s, sampleRun = some s :=
  Option.isSome_iff_exists.mp (by decide +kernel)

/-- How the requests of the sample end. The two that fail in the database end alike, and the one
that is refused does not. -/
theorem sampleRun_ends {s : State (Fin 5)} (ran : sampleRun = some s) :
    (List.finRange 5).map (fun key => (s.stage key).answer.bind Answer.status) =
      [some 500, some 500, some 400, some 201, some 201] := by
  have ends : sampleRun.map (fun s => (List.finRange 5).map fun key =>
        (s.stage key).answer.bind Answer.status) =
      some [some 500, some 500, some 400, some 201, some 201] := by
    decide +kernel
  rw [ran] at ends
  exact Option.some.inj ends

/-- The fourth request is recorded, and no document of another has its address. The first, which
has the same address, is not. -/
theorem requests_settled_sample : ∃ s, sampleRun = some s ∧
    (List.finRange 5).map (fun key => (s.stage key).answer.bind Answer.status) =
      [some 500, some 500, some 400, some 201, some 201] ∧
    ∃ address creator, (sampleRequests 3).Recordable sampleCollectionMongoose address creator ∧
      ∀ other document, other ≠ 3 → (s.stage other).answer = some (.data 201 document) →
        document.contractAddress ≠ sampleCollectionMongoose.lowercase address := by
  obtain ⟨s, ran⟩ := sampleRun_runs
  have ends := sampleRun_ends ran
  have fourth : (s.stage 3).answer.bind Answer.status = some 201 :=
    congrArg (fun statuses => statuses.getD 3 none) ends
  obtain ⟨answer, answered, status⟩ := Option.bind_eq_some_iff.mp fourth
  obtain ⟨_, succeeds, _⟩ := requests_settled ran 3 answer answered
  obtain ⟨_, address, creator, recordable, alone⟩ := succeeds.mp status
  exact ⟨s, ran, ends, address, creator, recordable, (alone rfl).2⟩

/-- Four collections are on chain and two of them have documents: a blank name and an address that
is held do not stop the transaction. -/
theorem records_exact_sample : ∃ s, sampleRun = some s ∧
    s.store.created.length = 4 ∧ s.store.documents.map CollectionDocument.name = ["Cats", "Dogs"] := by
  obtain ⟨s, ran⟩ := sampleRun_runs
  obtain ⟨_, _, _, created, _⟩ := records_exact ran
  refine ⟨s, ran, ?_, ?_⟩
  · rw [created]
    decide +kernel
  · have names : sampleRun.map (fun s => s.store.documents.map CollectionDocument.name) =
        some ["Cats", "Dogs"] := by
      decide +kernel
    rw [ran] at names
    exact Option.some.inj names

/-- The two documents are listed the other way round than they were saved, and their addresses
differ. -/
theorem listing_exact_sample : ∃ s listed, sampleRun = some s ∧
    getAllCollections sampleCollectionMongoose (fun _ => none) .production (.ok ()) s.store =
      .data 200 (listed.length, listed) ∧
    listed.map CollectionDocument.name = ["Dogs", "Cats"] ∧
    (listed.map CollectionDocument.contractAddress).Nodup := by
  obtain ⟨s, ran⟩ := sampleRun_runs
  obtain ⟨listed, answer, _, _, _, unique⟩ := listing_exact ran
  refine ⟨s, listed, ran, answer, ?_, unique rfl (by decide)⟩
  have names : sampleRun.map (fun s => (getAllCollections sampleCollectionMongoose (fun _ => none)
      .production (.ok ()) s.store).body.map fun body => body.2.map CollectionDocument.name) =
      some (some ["Dogs", "Cats"]) := by
    decide +kernel
  rw [ran] at names
  have shown := Option.some.inj names
  dsimp only at shown
  rw [answer] at shown
  exact Option.some.inj shown

/-- The state after part of the sample: the request for the first address again has its document,
and the first waits to save its own. -/
def overtaken : Option (State (Fin 5)) :=
  run (step sampleJoi sampleCollectionMongoose (fun _ => none) .production sampleRequests)
    (State.initial (Fin 5) emptyCollections)
    [.arrive 0, .arrive 3, .transact 0, .transact 3, .save 3]

/-- What of that state, and of the answer to the last request there, is decided by running it. -/
theorem overtaken_answer :
    overtaken.map (fun s =>
      ((s.stage 4).isIdle, (respond sampleJoi sampleCollectionMongoose (fun _ => none) .production
        (sampleRequests 4) s.store).1.status, (respond sampleJoi sampleCollectionMongoose
          (fun _ => none) .production (sampleRequests 4) s.store).2.documents.map
            CollectionDocument.name)) = some (true, some 201, ["Cats", "Dogs"]) := by
  decide +kernel

/-- From that state the last request can be finished: it is answered with its document, which
stands behind the one that was there, while the first request still waits. -/
theorem creation_uninterrupted_sample : ∃ s events after, overtaken = some s ∧
    (∀ event ∈ events, event.key = 4) ∧
    run (step sampleJoi sampleCollectionMongoose (fun _ => none) .production sampleRequests) s
      events = some after ∧
    (after.stage 4).answer.bind Answer.status = some 201 ∧
    after.store.documents.map CollectionDocument.name = ["Cats", "Dogs"] := by
  obtain ⟨s, reached, facts⟩ := Option.map_eq_some_iff.mp overtaken_answer
  simp only [Prod.mk.injEq] at facts
  obtain ⟨idle, status, documents⟩ := facts
  obtain ⟨events, own, ran⟩ := creation_uninterrupted s 4 (Stage.isIdle_iff.mp idle)
  refine ⟨s, events, _, reached, own, ran, ?_, documents⟩
  rw [Shared.enter_stage]
  exact status

end Sample

end CollectionController

end OpenBeach
