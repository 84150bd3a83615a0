import OpenBeach.CollectionService
import OpenBeach.Library.Handlers
import OpenBeach.Recordings

/-!
# Requests for collections

A request to create a collection is validated, waits for the transaction that creates it, and
waits again while its document is saved; meanwhile other requests go on. The validator and
the schema agree on all but blank names and symbols, so these, an address that is known
already and the services around it are all that a valid request can fail for.
-/

namespace OpenBeach

open Services Handlers CollectionService CollectionValidator

/-- A request, with the address of the authenticated user, if there is one. The replies are what
the chain, the clock and the database would answer to it. -/
structure CollectionRequest where
  body : JsValue
  user : Option JsValue
  replies : CollectionReplies

namespace CollectionController

variable (joi : Joi) (mongoose : CollectionMongoose) (quoted : String → Option String)
  (environment : NodeEnv)

/-- `createCollection`, up to the error that is handed to the middleware. -/
def createCollection (request : CollectionRequest) :
    ExceptT JsError (StateM CollectionBackend) CollectionDocument := do
  match validateCollection joi request.body with
  | some violation => throw (.appError 400 (joi.message violation))
  | none =>
    match request.user with
    | none => throw (.typeError "Cannot read properties of undefined (reading 'address')")
    | some address => CollectionService.createCollection mongoose request.body address request.replies

/-- What becomes of a request, and the state it leaves. An error is answered by the middleware,
and what was written before it stays. -/
def respond (request : CollectionRequest) (state : CollectionBackend) :
    Answer CollectionDocument × CollectionBackend :=
  match exec (createCollection joi mongoose request) state with
  | (.ok document, after) => (.data 201 document, after)
  | (.error err, after) => (ErrorMiddleware.errorMiddleware quoted environment err, after)

/-- `getAllCollections`: the answer lists the documents and their number. -/
def getAllCollections (database : Except String Unit) (state : CollectionBackend) :
    Answer (Nat × List CollectionDocument) :=
  match CollectionService.getAllCollections mongoose database state with
  | .ok documents => .data 200 (documents.length, documents)
  | .error err => ErrorMiddleware.errorMiddleware quoted environment err

end CollectionController

namespace CollectionRequest

/-- The fields of the body. A body that is no object has none. -/
def fields (request : CollectionRequest) : List (String × JsValue) :=
  (objectFields request.body).getD []

/-- The text of a field. Values of other types have none. -/
def text (request : CollectionRequest) (key : String) : Option String :=
  match lookupField request.fields key with
  | .string text => some text
  | _ => none

/-- What the factory is called with. They are taken from the body as they came, not from the
document. -/
def arguments (request : CollectionRequest) : List JsValue :=
  [lookupField request.fields "name", lookupField request.fields "symbol",
    lookupField request.fields "category"]

/-- The request passes the validator, comes with a body and from a user. -/
structure Passes (joi : Joi) (request : CollectionRequest) : Prop where
  object : (objectFields request.body).isSome = true
  valid : Valid joi request.fields
  known : request.user.isSome = true

/-- The collections that the transaction of the request creates on chain. A transaction that fails
creates none. -/
def mined (request : CollectionRequest) : List (List JsValue) :=
  match request.replies.createCollection request.arguments with
  | .ok _ => [request.arguments]
  | .error _ => []

/-- What the service hands to `new Collection`. The address comes from the chain, and the creator
is the user. -/
def handed (request : CollectionRequest) (address : String) (user : JsValue) :
    CollectionFields where
  name := lookupField request.fields "name"
  symbol := lookupField request.fields "symbol"
  description := lookupField request.fields "description"
  contractAddress := address
  creator := user
  category := lookupField request.fields "category"
  websiteUrl := lookupField request.fields "websiteUrl"
  discordUrl := lookupField request.fields "discordUrl"
  twitterUrl := lookupField request.fields "twitterUrl"

/-- What the schema demands beyond the validator: letters in the name and in the symbol, an
address and a creator. -/
structure Writable (mongoose : CollectionMongoose) (request : CollectionRequest) (address : String)
    (user : JsValue) (creator : String) : Prop where
  name : ∃ c ∈ ((request.text "name").getD "").toList, isWhitespace c = false
  symbol : ∃ c ∈ ((request.text "symbol").getD "").toList, isWhitespace c = false
  address : address ≠ ""
  creator : mongoose.castString "creator" user = .ok (some creator) ∧ creator ≠ ""

/-- What a request that passes can still fail for, whatever other requests do: the transaction,
what the schema demands, and the database. -/
structure Recordable (mongoose : CollectionMongoose) (request : CollectionRequest)
    (address creator : String) : Prop where
  announced : ∃ logs, request.replies.createCollection request.arguments = .ok logs ∧
    announced logs = some address
  writable : ∃ user, request.user = some user ∧ request.Writable mongoose address user creator
  reachable : request.replies.database = .ok ()

/-- The document of a request. -/
def document (mongoose : CollectionMongoose) (request : CollectionRequest)
    (address creator : String) : CollectionDocument where
  name := trim ((request.text "name").getD "")
  symbol := trim ((request.text "symbol").getD "")
  description := request.text "description"
  contractAddress := mongoose.lowercase address
  creator := mongoose.lowercase creator
  category := (request.text "category").getD ""
  isVerified := false
  websiteUrl := request.text "websiteUrl"
  discordUrl := request.text "discordUrl"
  twitterUrl := request.text "twitterUrl"
  createdAt := request.replies.now
  updatedAt := request.replies.now

end CollectionRequest

namespace CollectionController

/-- How far a request got. Between two stages other requests take their steps. -/
inductive Stage where
  | idle
  | transacting (userAddress : JsValue)
  | saving (userAddress : JsValue) (collectionAddress : String)
  | answered (answer : Answer CollectionDocument)

/-- The answer to the request. A request is answered at most once. -/
def Stage.answer : Stage → Option (Answer CollectionDocument)
  | .answered answer => some answer
  | _ => none

/-- The document the request was answered with. Errors have none. -/
def Stage.document (stage : Stage) : Option CollectionDocument := stage.answer.bind Answer.body

section Steps

variable (joi : Joi) (mongoose : CollectionMongoose) (quoted : String → Option String)
  (environment : NodeEnv)

/-- The answer to an error. It is what the middleware makes of it in this environment. -/
def failed (err : JsError) : Stage := .answered (ErrorMiddleware.errorMiddleware quoted environment err)

/-- A request up to the transaction. Its name is read first. It reads nothing that other requests
could have written. -/
def arrive (request : CollectionRequest) : Stage :=
  match validateCollection joi request.body with
  | some violation => failed quoted environment (.appError 400 (joi.message violation))
  | none =>
    match request.user with
    | none =>
      failed quoted environment
        (.typeError "Cannot read properties of undefined (reading 'address')")
    | some userAddress =>
      match property request.body "name" with
      | .error message => failed quoted environment (failure message)
      | .ok _ => .transacting userAddress

/-- The transaction is mined, unless it fails, and its event tells the address. An event without
the address is an error after the transaction. -/
def transact (request : CollectionRequest) (userAddress : JsValue) (state : CollectionBackend) :
    Stage × CollectionBackend :=
  match exec (CollectionService.transact request.replies request.arguments) state with
  | (.error message, after) => (failed quoted environment (failure message), after)
  | (.ok logs, after) =>
    match announced logs with
    | none =>
      (failed quoted environment (failure "Collection creation event not found"), after)
    | some collectionAddress => (.saving userAddress collectionAddress, after)

/-- The document is saved, unless it cannot be. -/
def save (request : CollectionRequest) (userAddress : JsValue) (collectionAddress : String)
    (state : CollectionBackend) : Stage × CollectionBackend :=
  match exec (CollectionService.save mongoose request.replies
      (request.handed collectionAddress userAddress)) state with
  | (.error message, after) => (failed quoted environment (failure message), after)
  | (.ok document, after) => (.answered (.data 201 document), after)

variable {κ : Type} [DecidableEq κ]

/-- The requests, the chain and the database. Requests share the chain and the database, and
nothing else. -/
abbrev State (κ : Type) := Shared CollectionBackend κ Stage

/-- No request has arrived. The state may be one that earlier requests left. -/
def State.initial (κ : Type) (state : CollectionBackend) : State κ := ⟨state, fun _ => .idle⟩

/-- A request takes its next step. Each has three steps at most, in this order. -/
inductive Event (κ : Type) where
  | arrive (key : κ)
  | transact (key : κ)
  | save (key : κ)
deriving DecidableEq

/-- What an event does, if it is possible. It has to be the next step of the request. -/
def step (requests : κ → CollectionRequest) (s : State κ) : Event κ → Option (State κ)
  | .arrive key =>
    match s.stage key with
    | .idle => some (s.enter key (arrive joi quoted environment (requests key), s.store))
    | _ => none
  | .transact key =>
    match s.stage key with
    | .transacting userAddress =>
      some (s.enter key (transact quoted environment (requests key) userAddress s.store))
    | _ => none
  | .save key =>
    match s.stage key with
    | .saving userAddress collectionAddress =>
      some (s.enter key
        (save mongoose quoted environment (requests key) userAddress collectionAddress s.store))
    | _ => none

end Steps

end CollectionController

section Schema

variable {mongoose : CollectionMongoose}

/-- A required text is there if something is left of it. The cast must have succeeded. -/
theorem required_ok {message text : String} {found : Except String (Option String)} :
    CollectionSchema.required message found = .ok text ↔ found = .ok (some text) ∧ text ≠ "" := by
  unfold CollectionSchema.required
  rw [bind_ok]
  constructor
  · rintro ⟨value, rfl, required⟩
    cases value with
    | none => cases required
    | some other =>
      dsimp only at required
      split at required
      · cases required
      · next present =>
        cases required
        exact ⟨rfl, present⟩
  · rintro ⟨rfl, present⟩
    exact ⟨some text, rfl, if_neg present⟩

/-- A value that is set was cast to a text, and the setter made the result of it. -/
theorem set_ok {path result : String} {setter : String → String} {value : JsValue} :
    CollectionSchema.set mongoose.toMongoose path setter value = .ok (some result) ↔
      ∃ text, mongoose.castString path value = .ok (some text) ∧ setter text = result := by
  unfold CollectionSchema.set
  cases mongoose.castString path value with
  | error message => simp [Except.map]
  | ok found => cases found <;> simp [Except.map]

/-- The validator and the schema name the same categories. -/
theorem categories_agree : CollectionSchema.categories = CollectionValidator.categories := rfl

/-- A text that the validator takes as an optional field is stored as it is. A missing field is
stored as missing. -/
theorem castString_optional {met : String → Prop} {request : CollectionRequest} {path : String}
    (optional : Optional met (lookupField request.fields path)) :
    mongoose.castString path (lookupField request.fields path) = .ok (request.text path) := by
  unfold CollectionRequest.text
  rcases optional with missing | ⟨text, same, _⟩
  · rw [missing, mongoose.castString_undefined]
  · rw [same, mongoose.castString_string]

/-- A text of the validator is more than nothing. It may still be nothing but white space. -/
theorem trim_nonempty {text : String} :
    trim text ≠ "" ↔ ∃ c ∈ text.toList, isWhitespace c = false := by
  rw [Ne, trim_eq_empty]
  simp

/-- A trimmed field that must be there. The name and the symbol are such fields. -/
theorem required_trimmed {message path text result : String} {value : JsValue}
    (same : value = .string text) :
    CollectionSchema.required message (CollectionSchema.set mongoose.toMongoose path trim value) =
        .ok result ↔
      (∃ c ∈ text.toList, isWhitespace c = false) ∧ result = trim text := by
  rw [required_ok, set_ok, same, mongoose.castString_string]
  constructor
  · rintro ⟨⟨_, ⟨⟩, rfl⟩, present⟩
    exact ⟨trim_nonempty.mp present, rfl⟩
  · rintro ⟨letters, rfl⟩
    exact ⟨⟨text, rfl, rfl⟩, trim_nonempty.mpr letters⟩

/-- A lower-case field that must be there. The address of the contract and that of the creator are
such fields. -/
theorem required_lowered {message path result : String} {value : JsValue} :
    CollectionSchema.required message
        (CollectionSchema.set mongoose.toMongoose path mongoose.lowercase value) = .ok result ↔
      ∃ text, mongoose.castString path value = .ok (some text) ∧ text ≠ "" ∧
        result = mongoose.lowercase text := by
  rw [required_ok, set_ok]
  constructor
  · rintro ⟨⟨text, cast, rfl⟩, present⟩
    refine ⟨text, cast, ?_, rfl⟩
    intro empty
    exact present ((mongoose.lowercase_empty text).mpr empty)
  · rintro ⟨text, cast, present, rfl⟩
    refine ⟨⟨text, cast, rfl⟩, ?_⟩
    intro empty
    exact present ((mongoose.lowercase_empty text).mp empty)

/-- The category that the validator took is one of the schema. It is stored as it was sent. -/
theorem category_ok {fields : CollectionFields} {text result : String}
    (same : fields.category = .string text) (member : text ∈ CollectionValidator.categories) :
    CollectionSchema.category mongoose fields = .ok result ↔ result = text := by
  have present : text ≠ "" := by
    rintro rfl
    revert member
    decide
  have required : CollectionSchema.required "Category is required"
      (mongoose.castString "category" fields.category) = .ok text := by
    rw [required_ok, same, mongoose.castString_string]
    exact ⟨rfl, present⟩
  unfold CollectionSchema.category
  rw [required]
  simp only [bind, Except.bind, categories_agree, member, if_true, pure_ok]

/-- What of a validated request the schema takes. -/
theorem document_ok {joi : Joi} {request : CollectionRequest} {address : String} {user : JsValue}
    {result : CollectionDocument} (valid : Valid joi request.fields) :
    CollectionSchema.document mongoose (request.handed address user) request.replies.now =
        .ok result ↔
      ∃ creator, request.Writable mongoose address user creator ∧
        result = request.document mongoose address creator := by
  obtain ⟨nameText, sizedName⟩ := valid.name
  obtain ⟨symbolText, sizedSymbol⟩ := valid.symbol
  obtain ⟨categoryText, category, member⟩ := valid.category
  have nameGiven : request.text "name" = some nameText := by
    simp [CollectionRequest.text, sizedName.string]
  have symbolGiven : request.text "symbol" = some symbolText := by
    simp [CollectionRequest.text, sizedSymbol.string]
  have categoryGiven : request.text "category" = some categoryText := by
    simp [CollectionRequest.text, category]
  have stored : ∀ found, CollectionSchema.category mongoose (request.handed address user) =
      .ok found ↔ found = categoryText := fun _ => category_ok category member
  unfold CollectionSchema.document
  simp only [bind_ok, pure_ok, stored]
  simp only [CollectionSchema.name, CollectionSchema.symbol, CollectionSchema.contractAddress,
    CollectionSchema.creator, CollectionRequest.handed, required_trimmed sizedName.string,
    required_trimmed sizedSymbol.string, required_lowered, castString_optional valid.description,
    castString_optional valid.websiteUrl, castString_optional valid.discordUrl,
    castString_optional valid.twitterUrl, mongoose.castString_string]
  constructor
  · rintro ⟨name, ⟨letters, rfl⟩, symbol, ⟨signs, rfl⟩, description, ⟨⟩, _, ⟨_, ⟨⟩, given, rfl⟩, _,
      ⟨creator, cast, present, rfl⟩, _, rfl, website, ⟨⟩, discord, ⟨⟩, twitter, ⟨⟩, rfl⟩
    refine ⟨creator, ⟨?_, ?_, given, cast, present⟩, ?_⟩
    · simpa [nameGiven] using letters
    · simpa [symbolGiven] using signs
    · simp [CollectionRequest.document, nameGiven, symbolGiven, categoryGiven]
  · rintro ⟨creator, ⟨letters, signs, given, cast, present⟩, rfl⟩
    rw [nameGiven] at letters
    rw [symbolGiven] at signs
    refine ⟨_, ⟨letters, rfl⟩, _, ⟨signs, rfl⟩, _, rfl, _, ⟨_, rfl, given, rfl⟩, _,
      ⟨creator, cast, present, rfl⟩, _, rfl, _, rfl, _, rfl, _, rfl, ?_⟩
    simp [CollectionRequest.document, nameGiven, symbolGiven, categoryGiven]

end Schema

section Effects

variable {joi : Joi} {mongoose : CollectionMongoose} {request : CollectionRequest}
  {state : CollectionBackend}

/-- The fields of an object are read. So none of these reads throws. -/
theorem property_ok (object : (objectFields request.body).isSome = true) (key : String) :
    property request.body key = .ok (lookupField request.fields key) := by
  obtain ⟨fields, found⟩ := Option.isSome_iff_exists.mp object
  rw [CollectionRequest.fields, found]
  cases body : request.body with
  | object | buffer =>
    rw [body] at found
    simp [property, found]
  | undefined | null | boolean | number | string | array =>
    rw [body] at found
    cases found

/-- What passes, the validator accepts. -/
theorem CollectionRequest.Passes.accepted (passes : request.Passes joi) :
    validateCollection joi request.body = none := by
  obtain ⟨fields, found⟩ := Option.isSome_iff_exists.mp passes.object
  refine validateCollection_none.mpr (.inr ⟨fields, found, ?_⟩)
  have same : request.fields = fields := by rw [CollectionRequest.fields, found, Option.getD_some]
  exact same ▸ passes.valid

/-- A document is stored if it is valid and its address is new. The database may fail in between. -/
theorem exec_save (fields : CollectionFields) (replies : CollectionReplies) :
    exec (save mongoose replies fields) state =
      match CollectionSchema.document mongoose fields replies.now with
      | .error _ =>
        (.error (mongoose.validationMessage (CollectionSchema.errors mongoose fields)), state)
      | .ok document =>
        match replies.database with
        | .error message => (.error message, state)
        | .ok () =>
          if state.indexed = true ∧ document.contractAddress ∈ state.addresses then
            (.error (mongoose.duplicateAddressMessage document.contractAddress), state)
          else (.ok document, { state with documents := state.documents ++ [document] }) := by
  unfold save CollectionSchema.validate
  simp only [exec_bind, exec_lift, exec_get]
  cases CollectionSchema.document mongoose fields replies.now with
  | error message => rfl
  | ok document =>
    dsimp only
    cases replies.database with
    | error message => rfl
    | ok reachable =>
      dsimp only
      split
      · rfl
      · simp only [exec_bind, exec_set, exec_pure]

/-- The transaction is mined unless it fails. The order of the transactions is the order on chain. -/
theorem exec_transact (replies : CollectionReplies) (arguments : List JsValue) :
    exec (transact replies arguments) state =
      match replies.createCollection arguments with
      | .error message => (.error message, state)
      | .ok logs => (.ok logs, state.push arguments) := by
  unfold transact
  simp only [exec_bind, exec_lift, exec_get, exec_set, exec_pure]
  cases replies.createCollection arguments <;> rfl

/-- What is saved of a validated request: the document, or nothing. -/
theorem save_cases (valid : Valid joi request.fields) (address : String) (user : JsValue)
    (state : CollectionBackend) :
    (∃ creator, request.Writable mongoose address user creator ∧
        (state.indexed = true → mongoose.lowercase address ∉ state.addresses) ∧
        request.replies.database = .ok () ∧
        exec (save mongoose request.replies (request.handed address user)) state =
          (.ok (request.document mongoose address creator),
            { state with documents := state.documents ++ [request.document mongoose address creator] })) ∨
      (¬ ((∃ creator, request.Writable mongoose address user creator) ∧
          (state.indexed = true → mongoose.lowercase address ∉ state.addresses) ∧
          request.replies.database = .ok ()) ∧
        ∃ message, exec (save mongoose request.replies (request.handed address user)) state =
          (.error message, state)) := by
  rw [exec_save]
  cases schema : CollectionSchema.document mongoose (request.handed address user)
      request.replies.now with
  | error message =>
    refine .inr ⟨?_, _, rfl⟩
    rintro ⟨⟨creator, writable⟩, _⟩
    have taken := (document_ok valid).mpr ⟨creator, writable, rfl⟩
    rw [schema] at taken
    cases taken
  | ok document =>
    obtain ⟨creator, writable, rfl⟩ := (document_ok valid).mp schema
    cases database : request.replies.database with
    | error message =>
      refine .inr ⟨?_, message, rfl⟩
      rintro ⟨_, _, reachable⟩
      cases reachable
    | ok reachable =>
      dsimp only
      by_cases held : state.indexed = true ∧
          (request.document mongoose address creator).contractAddress ∈ state.addresses
      · rw [if_pos held]
        exact .inr ⟨fun recordable => recordable.2.1 held.1 held.2, _, rfl⟩
      · rw [if_neg held]
        exact .inl ⟨creator, writable, fun indexed member => held ⟨indexed, member⟩, rfl, rfl⟩

end Effects

end OpenBeach
