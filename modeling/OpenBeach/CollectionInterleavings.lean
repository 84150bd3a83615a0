import OpenBeach.CollectionRequests
import OpenBeach.Library.Schedules

/-!
# Requests for collections in any order

Whatever the order in which the requests take their steps, the documents are those that were
saved, in the order they were saved, and the index keeps their addresses apart. What is
known of a request stays true whatever other requests do.
-/

namespace OpenBeach

open Services Schedules Handlers CollectionService CollectionValidator

/-- No document has the address, as far as the index tells. Without the index every address is
free. -/
def CollectionBackend.Free (mongoose : CollectionMongoose) (state : CollectionBackend)
    (address : String) : Prop :=
  state.indexed = true → mongoose.lowercase address ∉ state.addresses

/-- Documents are not taken back, and the index stays. New documents come behind the old ones. -/
structure CollectionBackend.Grows (state after : CollectionBackend) : Prop where
  documents : state.documents <+: after.documents
  indexed : after.indexed = state.indexed

/-- An address that is free now was free before. Documents are only added in between. -/
theorem CollectionBackend.Free.earlier {mongoose : CollectionMongoose}
    {state after : CollectionBackend} {address : String} (free : after.Free mongoose address)
    (grows : state.Grows after) : state.Free mongoose address := by
  intro indexed held
  have later : mongoose.lowercase address ∈ after.addresses :=
    (grows.documents.map CollectionDocument.contractAddress).subset held
  exact free (grows.indexed.trans indexed) later

namespace CollectionController

/-- How errors of a status are answered: with a message, or not at all if the environment is
neither development nor production. -/
inductive Told (environment : NodeEnv) (status : Nat) : Answer CollectionDocument → Prop where
  | message (text : String) (answering : environment ≠ .other) :
      Told environment status (.message status text)
  | nothing (silent : environment = .other) : Told environment status .unanswered

/-- What is known of a request, by how far it got. -/
inductive Sound (joi : Joi) (mongoose : CollectionMongoose) (environment : NodeEnv)
    (request : CollectionRequest) (state : CollectionBackend) : Stage → Prop where
  | idle : Sound joi mongoose environment request state .idle
  | transacting (userAddress : JsValue) (passes : request.Passes joi)
      (known : request.user = some userAddress) :
      Sound joi mongoose environment request state (.transacting userAddress)
  | saving (userAddress : JsValue) (collectionAddress : String) (passes : request.Passes joi)
      (known : request.user = some userAddress)
      (announces : ∃ logs, request.replies.createCollection request.arguments = .ok logs ∧
        announced logs = some collectionAddress) :
      Sound joi mongoose environment request state (.saving userAddress collectionAddress)
  | refused (violation : Violation) (answer : Answer CollectionDocument)
      (found : validateCollection joi request.body = some violation)
      (told : Told environment 400 answer) :
      Sound joi mongoose environment request state (.answered answer)
  | lost (answer : Answer CollectionDocument)
      (accepted : validateCollection joi request.body = none) (told : Told environment 500 answer)
      (unrecorded : ¬ (request.Passes joi ∧ ∃ address creator,
        request.Recordable mongoose address creator ∧ state.Free mongoose address)) :
      Sound joi mongoose environment request state (.answered answer)
  | recorded (address creator : String) (passes : request.Passes joi)
      (recordable : request.Recordable mongoose address creator)
      (stored : request.document mongoose address creator ∈ state.documents) :
      Sound joi mongoose environment request state
        (.answered (.data 201 (request.document mongoose address creator)))

/-- The transaction of the request is behind it, or it ended before. From then on the request
changes nothing on chain. -/
def Stage.past : Stage → Bool
  | .idle | .transacting _ => false
  | .saving _ _ | .answered _ => true

/-- What a step of a request does, besides taking it to its next stage. -/
structure Turn (joi : Joi) (mongoose : CollectionMongoose) (environment : NodeEnv)
    (request : CollectionRequest) (before : CollectionBackend) (old : Stage) (transacts : Bool)
    (outcome : Stage × CollectionBackend) : Prop where
  sound : Sound joi mongoose environment request outcome.2 outcome.1
  created : outcome.2.created = before.created ++ if transacts then request.mined else []
  rows : outcome.2.documents = before.documents ++ outcome.1.document.toList
  indexed : outcome.2.indexed = before.indexed
  fresh : ∀ document, outcome.1.document = some document → before.indexed = true →
    document.contractAddress ∉ before.addresses
  past : request.Passes joi → outcome.1.past = (old.past || transacts)
  passes : transacts = true → request.Passes joi

section Turns

variable {joi : Joi} {mongoose : CollectionMongoose} {quoted : String → Option String}
  {environment : NodeEnv} {request : CollectionRequest} {state after : CollectionBackend}
  {stage old : Stage}

/-- What is known of a request stays true of what has grown. It is about the request and about
documents that stay. -/
theorem Sound.grows (sound : Sound joi mongoose environment request state stage)
    (grows : state.Grows after) : Sound joi mongoose environment request after stage := by
  cases sound with
  | idle => exact .idle
  | transacting userAddress passes known => exact .transacting userAddress passes known
  | saving userAddress collectionAddress passes known announces =>
    exact .saving userAddress collectionAddress passes known announces
  | refused violation answer found told => exact .refused violation answer found told
  | lost answer accepted told unrecorded =>
    refine .lost answer accepted told ?_
    rintro ⟨passes, address, creator, recordable, free⟩
    exact unrecorded ⟨passes, address, creator, recordable, free.earlier grows⟩
  | recorded address creator passes recordable stored =>
    exact .recorded address creator passes recordable (grows.documents.subset stored)

/-- The answer to an error of the application. Its message is told in both environments. -/
theorem told_appError (environment : NodeEnv) (quoted : String → Option String) {status : Nat}
    (nonzero : status ≠ 0) (message : String) :
    Told environment status
      (ErrorMiddleware.errorMiddleware quoted environment (.appError status message)) := by
  obtain ⟨code, rfl⟩ := Nat.exists_eq_succ_of_ne_zero nonzero
  cases environment with
  | development | production => exact .message _ (by decide)
  | other => exact .nothing rfl

/-- The answer to an error of the engine. Its message is told in development alone. -/
theorem told_typeError (environment : NodeEnv) (quoted : String → Option String)
    (message : String) :
    Told environment 500
      (ErrorMiddleware.errorMiddleware quoted environment (.typeError message)) := by
  cases environment with
  | development | production => exact .message _ (by decide)
  | other => exact .nothing rfl

/-- An error is no document. -/
theorem Told.document {status : Nat} {answer : Answer CollectionDocument}
    (told : Told environment status answer) : (Stage.answered answer).document = none := by
  cases told with
  | message | nothing => rfl

/-- A request that ends with an error before anything was saved. The transaction may have been
mined by then. -/
theorem Turn.error {transacts : Bool} {status : Nat} {answer : Answer CollectionDocument}
    (sound : Sound joi mongoose environment request after (.answered answer))
    (told : Told environment status answer)
    (left : after = { state with
      created := state.created ++ if transacts then request.mined else [] })
    (past : request.Passes joi → (old.past || transacts) = true)
    (passes : transacts = true → request.Passes joi) :
    Turn joi mongoose environment request state old transacts (.answered answer, after) where
  sound := sound
  created := by rw [left]
  rows := by
    rw [told.document, left]
    exact (List.append_nil _).symm
  indexed := by rw [left]
  fresh document stored := by
    rw [told.document] at stored
    cases stored
  past passing := (past passing).symm
  passes := passes

/-- A request that is not over leaves the documents. It has written to the chain at most. -/
theorem Turn.waits {transacts : Bool}
    (sound : Sound joi mongoose environment request after stage) (unanswered : stage.answer = none)
    (left : after = { state with
      created := state.created ++ if transacts then request.mined else [] })
    (past : request.Passes joi → stage.past = (old.past || transacts))
    (passes : transacts = true → request.Passes joi) :
    Turn joi mongoose environment request state old transacts (stage, after) where
  sound := sound
  created := by rw [left]
  rows := by
    rw [Stage.document, unanswered, left]
    exact (List.append_nil _).symm
  indexed := by rw [left]
  fresh document stored := by
    rw [Stage.document, unanswered] at stored
    cases stored
  past := past
  passes := passes

/-- What the validator accepts passes, unless there is no body or no user. In those cases the
request ends with an error as it arrives. -/
theorem arrive_cases (joi : Joi) (quoted : String → Option String) (environment : NodeEnv)
    (request : CollectionRequest) :
    (∃ violation, validateCollection joi request.body = some violation ∧
      arrive joi quoted environment request =
        failed quoted environment (.appError 400 (joi.message violation))) ∨
    (validateCollection joi request.body = none ∧ ¬ request.Passes joi ∧
      ∃ err, arrive joi quoted environment request = failed quoted environment err ∧
        Told environment 500 (ErrorMiddleware.errorMiddleware quoted environment err)) ∨
    ∃ userAddress, request.Passes joi ∧ request.user = some userAddress ∧
      arrive joi quoted environment request = .transacting userAddress := by
  unfold arrive
  cases accepted : validateCollection joi request.body with
  | some violation => exact .inl ⟨violation, rfl, rfl⟩
  | none =>
    cases user : request.user with
    | none =>
      refine .inr (.inl ⟨rfl, fun passes => ?_, _, rfl, told_typeError environment quoted _⟩)
      have known := passes.known
      rw [user] at known
      cases known
    | some userAddress =>
      rcases validateCollection_none.mp accepted with missing | ⟨fields, found, valid⟩
      · rw [missing]
        refine .inr (.inl ⟨rfl, fun passes => ?_, _, rfl,
          told_appError environment quoted (by decide) _⟩)
        have object := passes.object
        rw [missing] at object
        cases object
      · have object : (objectFields request.body).isSome = true := by rw [found]; rfl
        have same : request.fields = fields := by rw [CollectionRequest.fields, found]; rfl
        refine .inr (.inr ⟨userAddress, ⟨object, same ▸ valid, by rw [user]; rfl⟩, rfl, ?_⟩)
        rw [property_ok object]

/-- Arriving is a turn: the request waits for its transaction, or it is over. It leaves chain and
database as they are. -/
theorem turn_arrive :
    Turn joi mongoose environment request state .idle false
      (arrive joi quoted environment request, state) := by
  have unchanged : state = { state with
      created := state.created ++ if false then request.mined else [] } := by simp
  rcases arrive_cases joi quoted environment request with
    ⟨violation, found, arrived⟩ | ⟨accepted, stopped, err, arrived, told⟩ |
      ⟨userAddress, passes, known, arrived⟩
  · rw [arrived]
    have told := told_appError environment quoted (by decide : 400 ≠ 0) (joi.message violation)
    refine Turn.error (.refused violation _ found told) told unchanged (fun passes => ?_) (by simp)
    rw [passes.accepted] at found
    cases found
  · rw [arrived]
    exact Turn.error (.lost _ accepted told fun recorded => stopped recorded.1) told unchanged
      (fun passes => absurd passes stopped) (by simp)
  · rw [arrived]
    exact Turn.waits (.transacting userAddress passes known) rfl unchanged (fun _ => rfl) (by simp)

/-- The transaction is a turn. It leaves its collection on chain whatever becomes of the request
afterwards. -/
theorem turn_transact {userAddress : JsValue} (passes : request.Passes joi)
    (known : request.user = some userAddress) :
    Turn joi mongoose environment request state (.transacting userAddress) true
      (transact quoted environment request userAddress state) := by
  have stopped : ∀ message after,
      after = { state with created := state.created ++ if true then request.mined else [] } →
      (¬ ∃ address creator, request.Recordable mongoose address creator ∧ after.Free mongoose address) →
      Turn joi mongoose environment request state (.transacting userAddress) true
        (failed quoted environment (failure message), after) := by
    intro message after left unrecordable
    have told := told_appError environment quoted (by decide : 500 ≠ 0)
      ("Failed to create collection: " ++ message)
    exact Turn.error (.lost _ passes.accepted told fun recorded => unrecordable recorded.2) told
      left (fun _ => rfl) fun _ => passes
  unfold transact
  rw [exec_transact]
  cases transaction : request.replies.createCollection request.arguments with
  | error message =>
    refine stopped message state ?_ ?_
    · simp [CollectionRequest.mined, transaction]
    · rintro ⟨address, creator, ⟨⟨logs, mined, _⟩, _⟩, _⟩
      rw [transaction] at mined
      cases mined
  | ok logs =>
    have left : state.push request.arguments = { state with
        created := state.created ++ if true then request.mined else [] } := by
      simp [CollectionRequest.mined, transaction, CollectionBackend.push]
    dsimp only
    cases event : announced logs with
    | none =>
      refine stopped _ _ left ?_
      rintro ⟨address, creator, ⟨⟨others, mined, found⟩, _⟩, _⟩
      obtain rfl := Except.ok.inj (transaction.symm.trans mined)
      rw [event] at found
      cases found
    | some collectionAddress =>
      exact Turn.waits (.saving userAddress collectionAddress passes known
        ⟨logs, transaction, event⟩) rfl left (fun _ => rfl) fun _ => passes

/-- Saving is a turn, and the last one: the document is stored, or the request ends with an error
that says why it could not be. -/
theorem turn_save {userAddress : JsValue} {collectionAddress : String}
    (passes : request.Passes joi) (known : request.user = some userAddress)
    (announces : ∃ logs, request.replies.createCollection request.arguments = .ok logs ∧
      announced logs = some collectionAddress) :
    Turn joi mongoose environment request state (.saving userAddress collectionAddress) false
      (save mongoose quoted environment request userAddress collectionAddress state) := by
  unfold save
  rcases save_cases passes.valid collectionAddress userAddress state with
    ⟨creator, writable, free, reachable, saved⟩ | ⟨refused, message, notSaved⟩
  · rw [saved]
    have recordable : request.Recordable mongoose collectionAddress creator :=
      ⟨announces, ⟨userAddress, known, writable⟩, reachable⟩
    refine ⟨.recorded collectionAddress creator passes recordable ?_, (List.append_nil _).symm, rfl,
      rfl, ?_, fun _ => rfl, by simp⟩
    · exact List.mem_append_right _ (List.mem_singleton_self _)
    · rintro document ⟨⟩ indexed
      exact free indexed
  · rw [notSaved]
    have told := told_appError environment quoted (by decide : 500 ≠ 0)
      ("Failed to create collection: " ++ message)
    refine Turn.error (.lost _ passes.accepted told ?_) told (by simp) (fun _ => rfl) (by simp)
    rintro ⟨_, address, creator, ⟨⟨logs, mined, found⟩, ⟨user, given, writable⟩, reachable⟩, free⟩
    obtain ⟨others, transaction, event⟩ := announces
    obtain rfl := Except.ok.inj (transaction.symm.trans mined)
    obtain rfl := Option.some.inj (event.symm.trans found)
    obtain rfl := Option.some.inj (known.symm.trans given)
    exact refused ⟨⟨creator, writable⟩, free, reachable⟩

end Turns

section Events

variable {κ : Type} [DecidableEq κ]

/-- The request an event is a step of. Every event is a step of one request. -/
def Event.key : Event κ → κ
  | .arrive key | .transact key | .save key => key

/-- The request that an event ends at the latest. It may have ended with an error before. -/
def Event.ends : Event κ → Option κ
  | .save key => some key
  | .arrive _ | .transact _ => none

/-- Whether an event is a transaction. The other steps do not touch the chain. -/
def Event.transacts : Event κ → Bool
  | .transact _ => true
  | .arrive _ | .save _ => false

/-- The collections that an event creates on chain. It is the call of the factory, with its
arguments. -/
def Event.mined (requests : κ → CollectionRequest) (event : Event κ) : List (List JsValue) :=
  if event.transacts then (requests event.key).mined else []

/-- The documents, as what requests were answered with. Each belongs to the request that was
answered with it. -/
def documents (κ : Type) : Journal CollectionBackend κ Stage (Event κ) CollectionDocument where
  log := CollectionBackend.documents
  ends := Event.ends
  done stage := stage.answer.isSome = true
  entry := Stage.document

/-- What an event does. One part is about the chain, one about the documents, and one about the
requests. -/
structure Effect (joi : Joi) (mongoose : CollectionMongoose) (environment : NodeEnv)
    (requests : κ → CollectionRequest) (s : State κ) (event : Event κ) (next : State κ) :
    Prop where
  created : next.store.created = s.store.created ++ event.mined requests
  saved : (documents κ).Effect s event next
  indexed : next.store.indexed = s.store.indexed
  sound : ∀ key, Sound joi mongoose environment (requests key) next.store (next.stage key)
  fresh : s.store.indexed = true → ∀ document ∈ (documents κ).entries next [event],
    document.contractAddress ∉ s.store.addresses
  past : ∀ key, ((requests key).Passes joi ∧ (next.stage key).past = true) ↔
    ((requests key).Passes joi ∧ (s.stage key).past = true) ∨ event = .transact key

section Effects

variable {joi : Joi} {mongoose : CollectionMongoose} {quoted : String → Option String}
  {environment : NodeEnv} {requests : κ → CollectionRequest} {s next : State κ} {event : Event κ}

omit [DecidableEq κ] in
/-- Of the events of a request, only its transaction is one. -/
theorem transacts_iff {key : κ} (about : event.key = key) :
    event.transacts = true ↔ event = .transact key := by
  subst about
  cases event <;> simp [Event.transacts, Event.key]

/-- A step of a request is a turn of it. The other requests keep their stages, and what is known
of them. -/
theorem Turn.effect {outcome : Stage × CollectionBackend}
    (turn : Turn joi mongoose environment (requests event.key) s.store (s.stage event.key)
      event.transacts outcome)
    (sound : ∀ key, Sound joi mongoose environment (requests key) s.store (s.stage key))
    (unanswered : (s.stage event.key).answer = none)
    (ending : event.ends = some event.key ∧ outcome.1.answer.isSome = true ∨
      event.ends = none ∧ outcome.1.document = none) :
    Effect joi mongoose environment requests s event (s.enter event.key outcome) where
  created := turn.created
  saved := Journal.effect_enter (by simp [documents, unanswered]) turn.rows ending
  indexed := turn.indexed
  sound := by
    have grows : s.store.Grows outcome.2 := ⟨⟨_, turn.rows.symm⟩, turn.indexed⟩
    exact @Shared.enter_known _ _ _ _ s event.key outcome
      (fun key state stage => Sound joi mongoose environment (requests key) state stage)
      sound turn.sound fun _ _ known => known.grows grows
  fresh indexed document member := by
    rw [Journal.entries_singleton] at member
    refine turn.fresh document ?_ indexed
    rcases ending with ⟨ends, _⟩ | ⟨ends, _⟩
    · simpa [documents, ends] using member
    · simp [documents, ends] at member
  past key := by
    by_cases same : event.key = key
    · subst same
      rw [Shared.enter_stage, ← transacts_iff rfl]
      constructor
      · rintro ⟨passes, past⟩
        rw [turn.past passes, Bool.or_eq_true] at past
        exact past.imp_left (And.intro passes)
      · rintro (⟨passes, past⟩ | transacts)
        · exact ⟨passes, by rw [turn.past passes, past, Bool.true_or]⟩
        · have passes := turn.passes transacts
          exact ⟨passes, by rw [turn.past passes, transacts, Bool.or_true]⟩
    · have elsewhere : event ≠ .transact key := by
        rintro rfl
        exact same rfl
      simp [Ne.symm same, elsewhere]

/-- Nothing is saved up to the transaction. A request that ends as it arrives ends with an error. -/
theorem document_arrive {request : CollectionRequest} :
    (arrive joi quoted environment request).document = none := by
  rcases arrive_cases joi quoted environment request with
    ⟨violation, _, arrived⟩ | ⟨_, _, err, arrived, told⟩ | ⟨userAddress, _, _, arrived⟩
  · rw [arrived]
    exact (told_appError environment quoted (by decide : 400 ≠ 0) _).document
  · rw [arrived]
    exact told.document
  · rw [arrived]
    rfl

/-- The transaction is answered with no document yet. If it is answered there, it is with an
error. -/
theorem document_transact {request : CollectionRequest} {userAddress : JsValue}
    {state : CollectionBackend} :
    (transact quoted environment request userAddress state).1.document = none := by
  have told message := (told_appError environment quoted (by decide : 500 ≠ 0)
    ("Failed to create collection: " ++ message)).document
  unfold transact
  rw [exec_transact]
  cases request.replies.createCollection request.arguments with
  | error message => exact told message
  | ok logs =>
    dsimp only
    cases announced logs with
    | none => exact told _
    | some collectionAddress => rfl

/-- Saving ends a request. With a document or with an error, there is no step after it. -/
theorem save_answered {request : CollectionRequest} {userAddress : JsValue}
    {collectionAddress : String} {state : CollectionBackend} :
    (save mongoose quoted environment request userAddress collectionAddress
      state).1.answer.isSome = true := by
  unfold save
  split <;> rfl

/-- The step lemma: every possible event has its effect. The cases are the three steps of a
request. -/
theorem step_effect
    (sound : ∀ key, Sound joi mongoose environment (requests key) s.store (s.stage key))
    (stepped : step joi mongoose quoted environment requests s event = some next) :
    Effect joi mongoose environment requests s event next := by
  cases event with
  | arrive key =>
    simp only [step] at stepped
    split at stepped
    · next was =>
      cases stepped
      have turn := @turn_arrive joi mongoose quoted environment (requests key) s.store
      rw [← was] at turn
      exact @Turn.effect _ _ _ _ _ _ s (.arrive key) _ turn sound (by rw [Event.key, was]; rfl)
        (.inr ⟨rfl, document_arrive⟩)
    · cases stepped
  | transact key =>
    simp only [step] at stepped
    split at stepped
    · next userAddress was =>
      cases stepped
      have known := sound key
      rw [was] at known
      cases known with
      | transacting _ passes known =>
        have turn := @turn_transact joi mongoose quoted environment (requests key) s.store _
          passes known
        rw [← was] at turn
        exact @Turn.effect _ _ _ _ _ _ s (.transact key) _ turn sound (by rw [Event.key, was]; rfl)
          (.inr ⟨rfl, document_transact⟩)
    · cases stepped
  | save key =>
    simp only [step] at stepped
    split at stepped
    · next userAddress collectionAddress was =>
      cases stepped
      have known := sound key
      rw [was] at known
      cases known with
      | saving _ _ passes known announces =>
        have turn := @turn_save joi mongoose quoted environment (requests key) s.store _ _
          passes known announces
        rw [← was] at turn
        exact @Turn.effect _ _ _ _ _ _ s (.save key) _ turn sound (by rw [Event.key, was]; rfl)
          (.inl ⟨rfl, save_answered⟩)
    · cases stepped

end Effects

/-- What the requests have done so far. The chain, the documents and the stages are each told from
the events. -/
structure Account (joi : Joi) (mongoose : CollectionMongoose) (environment : NodeEnv)
    (requests : κ → CollectionRequest) (start : CollectionBackend) (events : List (Event κ))
    (s : State κ) : Prop where
  created : s.store.created = start.created ++ events.flatMap (Event.mined requests)
  saved : (documents κ).Kept start events s
  indexed : s.store.indexed = start.indexed
  sound : ∀ key, Sound joi mongoose environment (requests key) s.store (s.stage key)
  distinct : start.indexed = true →
    (((documents κ).entries s events).map CollectionDocument.contractAddress).Nodup ∧
      ∀ document ∈ (documents κ).entries s events, document.contractAddress ∉ start.addresses
  transacted : ∀ key, .transact key ∈ events ↔
    (requests key).Passes joi ∧ (s.stage key).past = true

section Runs

variable {joi : Joi} {mongoose : CollectionMongoose} {quoted : String → Option String}
  {environment : NodeEnv} {requests : κ → CollectionRequest} {start : CollectionBackend}
  {events : List (Event κ)} {s next : State κ} {event : Event κ}

omit [DecidableEq κ] in
/-- Before the first event there is nothing to account for. The documents and the collections are
those of the start. -/
theorem account_initial (start : CollectionBackend) :
    Account joi mongoose environment requests start [] (State.initial κ start) where
  created := (List.append_nil _).symm
  saved := Journal.kept_initial fun _ => rfl
  indexed := rfl
  sound key := .idle
  distinct _ := ⟨List.nodup_nil, fun document member => by cases member⟩
  transacted key := by simp [State.initial, Stage.past]

omit [DecidableEq κ] in
/-- The addresses that are held are those that were there, and those of the documents that
requests were answered with. -/
theorem Account.addresses (account : Account joi mongoose environment requests start events s) :
    s.store.addresses = start.addresses ++
      ((documents κ).entries s events).map CollectionDocument.contractAddress := by
  have log : s.store.documents = _ := account.saved.log
  rw [CollectionBackend.addresses, log, List.map_append]
  rfl

omit [DecidableEq κ] in
/-- The index keeps the addresses apart. A new document has an address that was free just before. -/
theorem Account.distinct_step (account : Account joi mongoose environment requests start events s)
    (effect : Effect joi mongoose environment requests s event next)
    (indexed : start.indexed = true) :
    (((documents κ).entries next (events ++ [event])).map
        CollectionDocument.contractAddress).Nodup ∧
      ∀ document ∈ (documents κ).entries next (events ++ [event]),
        document.contractAddress ∉ start.addresses := by
  obtain ⟨distinct, new⟩ := account.distinct indexed
  have fresh := effect.fresh (account.indexed.trans indexed)
  rw [account.addresses] at fresh
  rw [Journal.entries_append, account.saved.entries effect.saved]
  constructor
  · rw [List.map_append, List.nodup_append]
    refine ⟨distinct, ?_, ?_⟩
    · rw [Journal.entries_singleton]
      cases ((documents κ).ends event).bind fun key => (documents κ).entry (next.stage key) <;> simp
    · rintro address member _ now rfl
      obtain ⟨document, stored, rfl⟩ := List.mem_map.mp now
      exact fresh document stored (List.mem_append_right _ member)
  · intro document member
    rcases List.mem_append.mp member with earlier | now
    · exact new document earlier
    · exact fun held => fresh document now (List.mem_append_left _ held)

omit [DecidableEq κ] in
/-- What requests have done is known after one more event, if it was known before. Each part
follows from the same part of the effect. -/
theorem Account.step (account : Account joi mongoose environment requests start events s)
    (effect : Effect joi mongoose environment requests s event next) :
    Account joi mongoose environment requests start (events ++ [event]) next where
  created := by
    rw [effect.created, account.created, List.flatMap_append, List.flatMap_singleton,
      List.append_assoc]
  saved := account.saved.step effect.saved
  indexed := effect.indexed.trans account.indexed
  sound := effect.sound
  distinct := account.distinct_step effect
  transacted key := by
    rw [effect.past, ← account.transacted, List.mem_append, List.mem_singleton,
      eq_comm (a := event)]

/-- The run lemma. It is the step lemma, once for every event. -/
theorem account (ran : run (step joi mongoose quoted environment requests) (State.initial κ start)
    events = some s) : Account joi mongoose environment requests start events s :=
  run_induction (account_initial start)
    (fun _ _ _ _ known stepped => known.step (step_effect known.sound stepped)) ran

end Runs

end Events

end CollectionController

end OpenBeach
