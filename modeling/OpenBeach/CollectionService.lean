import OpenBeach.CollectionValidator

/-!
# Creating collections through the backend

A request is validated, a collection is created on chain, and a document about it is saved.
The validator and the schema of the documents are two descriptions of one thing. Whatever
fails after the validator is wrapped into one error, and the error middleware turns what it
gets into the answer.

The chain, the database and the authenticated user are part of a request; the libraries
are parameters, as far as the code uses them.
-/

namespace OpenBeach

open Services

/-- What the service hands to `new Collection`. They come from the body, from the user and from
the chain. -/
structure CollectionFields where
  name : JsValue
  symbol : JsValue
  description : JsValue
  contractAddress : String
  creator : JsValue
  category : JsValue
  websiteUrl : JsValue
  discordUrl : JsValue
  twitterUrl : JsValue

/-- A document of `CollectionSchema`. Optional fields are stored only if they were given. -/
structure CollectionDocument where
  name : String
  symbol : String
  description : Option String
  contractAddress : String
  creator : String
  category : String
  isVerified : Bool
  websiteUrl : Option String
  discordUrl : Option String
  twitterUrl : Option String
  createdAt : Nat
  updatedAt : Nat
deriving DecidableEq

/-- Mongoose, with what this schema and its queries use besides. The setter `lowercase` folds any
text in any script, and leaves nothing of nothing only. Documents of one time may be sorted in
any order. -/
structure CollectionMongoose extends Mongoose where
  castString_undefined : ∀ path, castString path .undefined = .ok none
  lowercase : String → String
  lowercase_empty : ∀ text, lowercase text = "" ↔ text = ""
  enumMessage : String → String → String
  duplicateAddressMessage : String → String
  newestFirst : List CollectionDocument → List CollectionDocument
  newestFirst_perm : ∀ documents, (newestFirst documents).Perm documents
  newestFirst_ordered : ∀ documents,
    (newestFirst documents).Pairwise fun first second => second.createdAt ≤ first.createdAt

namespace CollectionSchema

/-- `type: String` with a setter, which the cast value goes through. A setter is applied to what
the cast returns, if it returns anything. -/
def set (mongoose : Mongoose) (path : String) (setter : String → String) (value : JsValue) :
    Except String (Option String) :=
  (mongoose.castString path value).map (Option.map setter)

/-- `required: true`. The empty string counts as missing. The message is the one the schema gives. -/
def required (message : String) (found : Except String (Option String)) : Except String String := do
  match ← found with
  | none => throw message
  | some text => if text = "" then throw message else pure text

/-- The categories of the schema. -/
def categories : List String := ["art", "gaming", "music", "sports", "photography"]

/-- The path of the name. What is left of it after trimming must not be empty. The cast comes
first, then the setter, then the check. -/
def name (mongoose : CollectionMongoose) (fields : CollectionFields) : Except String String :=
  required "Collection name is required" (set mongoose.toMongoose "name" trim fields.name)

/-- The path of the symbol, which is treated like the name. The cast comes first, then the setter,
then the check. -/
def symbol (mongoose : CollectionMongoose) (fields : CollectionFields) : Except String String :=
  required "Collection symbol is required" (set mongoose.toMongoose "symbol" trim fields.symbol)

/-- The path of the contract's address. The index of the collection stands on what is stored here,
so addresses that differ in their case only are the same. -/
def contractAddress (mongoose : CollectionMongoose) (fields : CollectionFields) :
    Except String String :=
  required (mongoose.requiredMessage "contractAddress")
    (set mongoose.toMongoose "contractAddress" mongoose.lowercase (.string fields.contractAddress))

/-- The path of the creator's address. It comes from the authenticated user, so it may be anything
that can be cast to a text. -/
def creator (mongoose : CollectionMongoose) (fields : CollectionFields) : Except String String :=
  required (mongoose.requiredMessage "creator")
    (set mongoose.toMongoose "creator" mongoose.lowercase fields.creator)

/-- The path of the category, one of those that the schema names. They are written in lower case,
unlike those of the contract. -/
def category (mongoose : CollectionMongoose) (fields : CollectionFields) : Except String String := do
  let text ← required "Category is required" (mongoose.castString "category" fields.category)
  if text ∈ categories then pure text else throw (mongoose.enumMessage "category" text)

/-- The document, if no path has an error. -/
def document (mongoose : CollectionMongoose) (fields : CollectionFields) (now : Nat) :
    Except String CollectionDocument := do
  let name ← name mongoose fields
  let symbol ← symbol mongoose fields
  let description ← mongoose.castString "description" fields.description
  let contractAddress ← contractAddress mongoose fields
  let creator ← creator mongoose fields
  let category ← category mongoose fields
  let websiteUrl ← mongoose.castString "websiteUrl" fields.websiteUrl
  let discordUrl ← mongoose.castString "discordUrl" fields.discordUrl
  let twitterUrl ← mongoose.castString "twitterUrl" fields.twitterUrl
  pure { name, symbol, description, contractAddress, creator, category, isVerified := false
         websiteUrl, discordUrl, twitterUrl, createdAt := now, updatedAt := now }

open NFTSchema in
/-- The errors of all paths. A path without an error has no entry. -/
def errors (mongoose : CollectionMongoose) (fields : CollectionFields) : List (String × String) :=
  [errorAt "name" (name mongoose fields), errorAt "symbol" (symbol mongoose fields),
    errorAt "description" (mongoose.castString "description" fields.description),
    errorAt "contractAddress" (contractAddress mongoose fields),
    errorAt "creator" (creator mongoose fields), errorAt "category" (category mongoose fields),
    errorAt "websiteUrl" (mongoose.castString "websiteUrl" fields.websiteUrl),
    errorAt "discordUrl" (mongoose.castString "discordUrl" fields.discordUrl),
    errorAt "twitterUrl" (mongoose.castString "twitterUrl" fields.twitterUrl)].filterMap id

/-- Cast and validate all paths. The errors of all paths are reported together. The message of the
error names every path that failed. -/
def validate (mongoose : CollectionMongoose) (fields : CollectionFields) (now : Nat) :
    Except String CollectionDocument :=
  match document mongoose fields now with
  | .ok document => .ok document
  | .error _ => .error (mongoose.validationMessage (errors mongoose fields))

end CollectionSchema

/-- An error, as far as the middleware looks at it. What is missing reads as undefined in the
source, and as none here. -/
structure JsError where
  name : String
  message : String
  statusCode : Option Nat
  isOperational : Bool
  code : Option Nat
  errors : List String
  errmsg : String
deriving DecidableEq

/-- `new AppError`. Its errors are operational: their messages are meant for the user. -/
def JsError.appError (statusCode : Nat) (message : String) : JsError :=
  ⟨"Error", message, some statusCode, true, none, [], ""⟩

/-- What the engine throws when a property of nothing is read. It has no status, and is not
operational. -/
def JsError.typeError (message : String) : JsError :=
  ⟨"TypeError", message, none, false, none, [], ""⟩

/-- A log of a receipt, as the interface of the factory parses it. Other events of the interface
have other names. -/
structure LogDescription where
  name : String
  collectionAddress : String

/-- What one call is told by the chain and by the database, and its time. The chain answers
the call of the factory with the logs of its transaction; those of other contracts are
not parsed. -/
structure CollectionReplies where
  createCollection : List JsValue → Except String (List (Option LogDescription))
  database : Except String Unit
  now : Nat

/-- The collections created on chain, as what the factory was called with, and the documents in
the order they were stored. `unique: true` stands at `contractAddress`, and holds if the
database has the index; it is built along with the connection in development only. -/
structure CollectionBackend where
  created : List (List JsValue)
  documents : List CollectionDocument
  indexed : Bool

/-- The addresses of the documents. -/
def CollectionBackend.addresses (state : CollectionBackend) : List String :=
  state.documents.map CollectionDocument.contractAddress

/-- A collection is created on chain. It is behind those that were created before. -/
def CollectionBackend.push (state : CollectionBackend) (arguments : List JsValue) :
    CollectionBackend :=
  { state with created := state.created ++ [arguments] }

/-- Code of the service. An error does not undo what was written before it. -/
abbrev CollectionCode := ExceptT String (StateM CollectionBackend)

namespace CollectionService

/-- `value.key`. Reading one of nothing throws, and a missing one is undefined. -/
def property (value : JsValue) (key : String) : Except String JsValue :=
  match value with
  | .undefined => .error ("Cannot read properties of undefined (reading '" ++ key ++ "')")
  | .null => .error ("Cannot read properties of null (reading '" ++ key ++ "')")
  | _ => .ok (((CollectionValidator.objectFields value).map (lookupField · key)).getD .undefined)

/-- The address in the first log of the event. Logs that cannot be parsed are passed over. -/
def announced (logs : List (Option LogDescription)) : Option String :=
  logs.findSome? fun log =>
    (log.filter fun parsed => parsed.name = "CollectionCreated").map LogDescription.collectionAddress

/-- `collection.save`. The index refuses an address that a document has already. -/
def save (mongoose : CollectionMongoose) (replies : CollectionReplies) (fields : CollectionFields) :
    CollectionCode CollectionDocument := do
  let document ← CollectionSchema.validate mongoose fields replies.now
  replies.database
  let state ← get
  if state.indexed = true ∧ document.contractAddress ∈ state.addresses then
    throw (mongoose.duplicateAddressMessage document.contractAddress)
  else do
    set { state with documents := state.documents ++ [document] }
    pure document

/-- The transaction of the factory. It cannot be undone. -/
def transact (replies : CollectionReplies) (arguments : List JsValue) :
    CollectionCode (List (Option LogDescription)) := do
  let logs ← replies.createCollection arguments
  let state ← get
  set (state.push arguments)
  pure logs

/-- The error of `createCollection`. Whatever the cause was, the status is the same. -/
def failure (message : String) : JsError := .appError 500 ("Failed to create collection: " ++ message)

/-- `createCollection`. -/
def createCollection (mongoose : CollectionMongoose) (data userAddress : JsValue)
    (replies : CollectionReplies) : ExceptT JsError (StateM CollectionBackend) CollectionDocument :=
  ExceptT.adapt failure do
    let name ← property data "name"
    let symbol ← property data "symbol"
    let category ← property data "category"
    let logs ← transact replies [name, symbol, category]
    match announced logs with
    | none => throw "Collection creation event not found"
    | some collectionAddress =>
      let description ← property data "description"
      let websiteUrl ← property data "websiteUrl"
      let discordUrl ← property data "discordUrl"
      let twitterUrl ← property data "twitterUrl"
      save mongoose replies
        { name, symbol, description, contractAddress := collectionAddress, creator := userAddress
          category, websiteUrl, discordUrl, twitterUrl }

/-- `getAllCollections`, with its default query. -/
def getAllCollections (mongoose : CollectionMongoose) (database : Except String Unit)
    (state : CollectionBackend) : Except JsError (List CollectionDocument) :=
  Except.mapError (fun message => .appError 500 ("Failed to fetch collections: " ++ message)) do
    database
    pure (mongoose.newestFirst state.documents)

end CollectionService

/-- `NODE_ENV`. The middleware knows two of them, and answers in no other. -/
inductive NodeEnv where
  | development
  | production
  | other
deriving DecidableEq

/-- What becomes of a request: an answer with data, an answer with a message, no answer at
all, or an error that the middleware itself throws. -/
inductive Answer (β : Type) where
  | data (status : Nat) (body : β)
  | message (status : Nat) (text : String)
  | unanswered
  | thrown (message : String)
deriving DecidableEq

/-- The status of an answer. An answer that was never sent has none. -/
def Answer.status {β : Type} : Answer β → Option Nat
  | .data status _ | .message status _ => some status
  | .unanswered | .thrown _ => none

/-- The data of an answer. A message has none. -/
def Answer.body {β : Type} : Answer β → Option β
  | .data _ body => some body
  | .message _ _ | .unanswered | .thrown _ => none

namespace ErrorMiddleware

/-- `sendErrorProd`. Errors that are not operational are not told to the user. -/
def sendErrorProd {β : Type} (err : JsError) : Answer β :=
  if err.isOperational = true then .message (err.statusCode.getD 500) err.message
  else .message 500 "Something went very wrong!"

/-- `sendErrorDev`, as far as the message. The stack that goes with it is left out. -/
def sendErrorDev {β : Type} (err : JsError) : Answer β :=
  .message (err.statusCode.getD 500) err.message

/-- The default status and message. They are set where the error brings nothing of its own. -/
def withDefaults (err : JsError) : JsError :=
  { err with
    statusCode := some (match err.statusCode with
      | none | some 0 => 500
      | some statusCode => statusCode)
    message := if err.message = "" then "Internal Server Error" else err.message }

/-- The answer to an error that is not replaced any more. Which way it is sent depends on the
environment alone. -/
def send {β : Type} (environment : NodeEnv) (err : JsError) : Answer β :=
  match environment with
  | .development => sendErrorDev err
  | .production => sendErrorProd err
  | .other => .unanswered

/-- `errorMiddleware`. Errors of the database and of tokens are replaced; `quoted` finds the
first quoted part of a text. -/
def errorMiddleware {β : Type} (quoted : String → Option String) (environment : NodeEnv)
    (thrown : JsError) : Answer β :=
  let err := withDefaults thrown
  if err.name = "ValidationError" then
    send environment (.appError 400 ("Invalid input data. " ++ String.intercalate ". " err.errors))
  else
    let duplicate : Option (Option String) := if err.code = some 11000 then some (quoted err.errmsg)
      else none
    match duplicate with
    | some none => .thrown "Cannot read properties of null (reading '0')"
    | some (some value) =>
      send environment
        (.appError 400 ("Duplicate field value: " ++ value ++ ". Please use another value!"))
    | none =>
      if err.name = "JsonWebTokenError" then
        send environment (.appError 401 "Invalid token. Please log in again!")
      else if err.name = "TokenExpiredError" then
        send environment (.appError 401 "Your token has expired! Please log in again.")
      else send environment err

end ErrorMiddleware

end OpenBeach
