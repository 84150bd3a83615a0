import OpenBeach.Library.Schedules
import OpenBeach.Solidity

/-!
# Concurrent mints of the backend

Every mint is sent from the account of the owner. A call reads how many transactions of the
account are mined, reads the gas price, signs with the number it read and sends. Between
any two of these steps other calls take theirs and the node mines.

The node keeps the transactions that were sent until they are mined, at most one for each
nonce. One that comes with a nonce already mined is refused, and one that comes with the
nonce of another either takes its place or is refused.
-/

namespace OpenBeach

open Schedules

namespace BlockchainService

/-- The configured addresses. They are those of the account that pays and of the contract it
calls. -/
structure Config where
  ownerAddress : Address
  contractAddress : Address

/-- The arguments of `mintNFT`. They are passed to the contract as they are. -/
structure Request where
  tokenId : Nat
  ipfsHash : String
  creatorAddress : String

/-- The contract call a transaction makes. It is what the encoded data of the transaction says. -/
structure MintNFT where
  creatorAddress : String
  tokenId : Nat
  ipfsHash : String
deriving DecidableEq

/-- A transaction as it is signed. The signature itself is left out; the key of the account is the
same for all. -/
structure Transaction where
  sender : Address
  recipient : Address
  nonce : Nat
  gasPrice : Nat
  gasLimit : Nat
  data : MintNFT
deriving DecidableEq

/-- `tx` of `mintNFT`. The limit of the gas is the constant of the source. -/
def transaction (config : Config) (request : Request) (nonce gasPrice : Nat) : Transaction where
  sender := config.ownerAddress
  recipient := config.contractAddress
  nonce := nonce
  gasPrice := gasPrice
  gasLimit := 500000
  data := ⟨request.creatorAddress, request.tokenId, request.ipfsHash⟩

/-- How far a call got, and what it knows by then. Each await of the source ends a stage. -/
inductive Stage where
  | idle
  | counted (nonce : Nat)
  | priced (nonce gasPrice : Nat)
  | signed (tx : Transaction)
  | sent (tx : Transaction)
  | returned (tx : Transaction)
  | failed (tx : Option Transaction)
deriving DecidableEq

/-- What the call signed. Before signing there is none, and afterwards it stays the same. -/
def Stage.transaction : Stage → Option Transaction
  | .signed tx => some tx
  | .sent tx => some tx
  | .returned tx => some tx
  | .failed tx => tx
  | _ => none

/-- The nonce the call goes by. It is fixed when the count is read, long before it is signed. -/
def Stage.nonce : Stage → Option Nat
  | .counted nonce => some nonce
  | .priced nonce _ => some nonce
  | stage => stage.transaction.map Transaction.nonce

/-- Whether the transaction of the call may have been handed to the node. This is true of every call
that failed with a signed transaction, whether it failed before the node had it or after. -/
def Stage.handed : Stage → Bool
  | .sent _ => true
  | .returned _ => true
  | .failed (some _) => true
  | _ => false

variable {κ : Type} [DecidableEq κ]

/-- The calls, what the node waits to mine, and what is mined, most recent first. `refused`
and `replaced` collect the calls that the node turned away, or whose transaction it dropped
for that of another. -/
structure State (κ : Type) where
  minedBefore : Nat
  stage : κ → Stage
  pool : List κ
  mined : List κ
  refused : List κ
  replaced : List κ

/-- No call has begun. The account may have sent transactions before. -/
def State.initial (κ : Type) (minedBefore : Nat) : State κ :=
  ⟨minedBefore, fun _ => .idle, [], [], [], []⟩

/-- How many transactions of the account are mined. This is what the node answers, whatever still
waits. -/
def State.count (s : State κ) : Nat := s.minedBefore + s.mined.length

/-- The transaction a call signed. It is read off the stage of the call. -/
def State.signed (s : State κ) (call : κ) : Option Transaction := (s.stage call).transaction

/-- A call goes to its next stage. Its transaction and the pool are up to the event. -/
def State.enter (s : State κ) (call : κ) (stage : Stage) : State κ :=
  { s with stage := Function.update s.stage call stage }

/-- One awaited step of a call ends, or the node mines a transaction. A call may fail on
its own wherever it waits. -/
inductive Event (κ : Type) where
  | getTransactionCount (call : κ)
  | getGasPrice (call : κ) (gasPrice : Nat)
  | signTransaction (call : κ)
  | sendSignedTransaction (call : κ) (replaces : Bool)
  | mine (call : κ)
  | receive (call : κ)
  | fail (call : κ)
deriving DecidableEq

/-- The node turns a transaction away. The call fails with it, and the pool stays as it was. -/
def State.refuse (s : State κ) (call : κ) (tx : Transaction) : State κ :=
  { s with
    stage := Function.update s.stage call (.failed (some tx))
    refused := call :: s.refused }

/-- The node takes a transaction, in place of those named. The others are not mined any more, and
nobody tells their callers. -/
def State.accept (s : State κ) (call : κ) (tx : Transaction) (dropped : List κ) : State κ :=
  { s with
    stage := Function.update s.stage call (.sent tx)
    pool := call :: s.pool.filter (fun other => other ∉ dropped)
    replaced := dropped ++ s.replaced }

/-- The transactions that wait with a nonce. There is at most one in practice, which the node sees
to. -/
def State.waiting (s : State κ) (nonce : Nat) : List κ :=
  s.pool.filter fun call => (s.signed call).map Transaction.nonce = some nonce

/-- `sendSignedTransaction`, as the node answers it. A nonce that is spent is refused, and one
that waits may be replaced. -/
def State.send (s : State κ) (call : κ) (tx : Transaction) (replaces : Bool) : State κ :=
  if tx.nonce < s.count then s.refuse call tx
  else if s.waiting tx.nonce = [] then s.accept call tx []
  else if replaces then s.accept call tx (s.waiting tx.nonce)
  else s.refuse call tx

/-- The node mines a transaction that waits. The callers of mined transactions learn of it later. -/
def State.confirm (s : State κ) (call : κ) : State κ :=
  { s with
    pool := s.pool.erase call
    mined := call :: s.mined }

/-- What an event does, if it is possible. A call may fail at every stage after it has read the
count. -/
def step (config : Config) (requests : κ → Request) (s : State κ) : Event κ → Option (State κ)
  | .getTransactionCount call =>
    match s.stage call with
    | .idle => some (s.enter call (.counted s.count))
    | _ => none
  | .getGasPrice call gasPrice =>
    match s.stage call with
    | .counted nonce => some (s.enter call (.priced nonce gasPrice))
    | _ => none
  | .signTransaction call =>
    match s.stage call with
    | .priced nonce gasPrice =>
      some (s.enter call (.signed (transaction config (requests call) nonce gasPrice)))
    | _ => none
  | .sendSignedTransaction call replaces =>
    match s.stage call with
    | .signed tx => some (s.send call tx replaces)
    | _ => none
  | .mine call =>
    if call ∈ s.pool ∧ (s.signed call).map Transaction.nonce = some s.count then
      some (s.confirm call)
    else none
  | .receive call =>
    match s.stage call with
    | .sent tx => if call ∈ s.mined then some (s.enter call (.returned tx)) else none
    | _ => none
  | .fail call =>
    match s.stage call with
    | .counted _ => some (s.enter call (.failed none))
    | .priced _ _ => some (s.enter call (.failed none))
    | .signed tx => some (s.enter call (.failed (some tx)))
    | .sent tx => some (s.enter call (.failed (some tx)))
    | _ => none

/-- The call an event is about. Mining is about the call whose transaction is mined. -/
def Event.call : Event κ → κ
  | .getTransactionCount call => call
  | .getGasPrice call _ => call
  | .signTransaction call => call
  | .sendSignedTransaction call _ => call
  | .mine call => call
  | .receive call => call
  | .fail call => call

section Steps

variable {config : Config} {requests : κ → Request} {s next : State κ} {event : Event κ}

/-- Who has signed goes by the nonce of the transaction. The transaction was built with what the
call had read. -/
theorem Stage.nonce_eq {stage : Stage} {tx : Transaction} (signed : stage.transaction = some tx) :
    stage.nonce = some tx.nonce := by
  cases stage with
  | idle => cases signed
  | counted nonce => cases signed
  | priced nonce gasPrice => cases signed
  | signed other => cases signed; rfl
  | sent other => cases signed; rfl
  | returned other => cases signed; rfl
  | failed other => cases signed; rfl

/-- What an event can do to the calls and to what is mined. Stages go on, transactions stay as
signed, and what is mined stays mined. -/
structure Effect (s : State κ) (event : Event κ) (next : State κ) : Prop where
  minedBefore : next.minedBefore = s.minedBefore
  begins : ∀ call, event = .getTransactionCount call → s.stage call = .idle
  begun : ∀ call, next.stage call ≠ .idle ↔
    s.stage call ≠ .idle ∨ .getTransactionCount call = event
  nonce : ∀ call nonce, (next.stage call).nonce = some nonce →
    (s.stage call).nonce = some nonce ∨ (event = .getTransactionCount call ∧ nonce = s.count)
  kept : ∀ call tx, s.signed call = some tx → next.signed call = some tx
  signs : ∀ call, (∃ tx, next.signed call = some tx) ↔
    (∃ tx, s.signed call = some tx) ∨ .signTransaction call = event
  mined : next.mined = s.mined ∧ (∀ call, event ≠ .mine call) ∨
    ∃ call tx, event = .mine call ∧ next.mined = call :: s.mined ∧
      s.signed call = some tx ∧ tx.nonce = s.count

/-- How an event can take its call from one stage to the next. The nonce is the count at the time
of reading, and nothing changes it afterwards. -/
structure Advances (count : Nat) (event : Event κ) (old new : Stage) : Prop where
  quiet : event ≠ .mine event.call
  busy : new ≠ .idle
  begins : old = .idle ↔ event = .getTransactionCount event.call
  nonce : ∀ nonce, new.nonce = some nonce → old.nonce = some nonce ∨
    (event = .getTransactionCount event.call ∧ nonce = count)
  kept : ∀ tx, old.transaction = some tx → new.transaction = some tx
  signs : (∃ tx, new.transaction = some tx) ↔
    (∃ tx, old.transaction = some tx) ∨ .signTransaction event.call = event

/-- How a call goes on when it hands nothing over. Reading, pricing, signing and failing are of
this kind. -/
structure Enters (count : Nat) (event : Event κ) (old new : Stage) : Prop
    extends Advances count event old new where
  handed : old.handed = true → new.handed = true
  unsent : ∀ tx, new ≠ .sent tx

/-- What a possible event does: a call goes on by itself, or it sends, or the node mines. -/
theorem step_cases (stepped : step config requests s event = some next) :
    (∃ stage, Enters s.count event (s.stage event.call) stage ∧
      next = s.enter event.call stage) ∨
    (∃ call tx replaces, event = .sendSignedTransaction call replaces ∧
      s.stage call = .signed tx ∧ next = s.send call tx replaces) ∨
    (∃ call tx, event = .mine call ∧ call ∈ s.pool ∧ s.signed call = some tx ∧
      tx.nonce = s.count ∧ next = s.confirm call) := by
  cases event with
  | getTransactionCount call =>
    simp only [step] at stepped
    split at stepped
    · next was =>
      cases stepped
      refine .inl ⟨_, ⟨?_, by simp [Event.call, was, Stage.handed], by simp⟩, rfl⟩
      constructor <;> simp [was, Event.call, Stage.nonce, Stage.transaction, eq_comm]
    · cases stepped
  | getGasPrice call gasPrice =>
    simp only [step] at stepped
    split at stepped
    · next nonce was =>
      cases stepped
      refine .inl ⟨_, ⟨?_, by simp [Event.call, was, Stage.handed], by simp⟩, rfl⟩
      constructor <;> simp [was, Event.call, Stage.nonce, Stage.transaction]
    · cases stepped
  | signTransaction call =>
    simp only [step] at stepped
    split at stepped
    · next nonce gasPrice was =>
      cases stepped
      refine .inl ⟨_, ⟨?_, by simp [Event.call, was, Stage.handed], by simp⟩, rfl⟩
      constructor <;> simp [was, Event.call, Stage.nonce, Stage.transaction, transaction]
    · cases stepped
  | sendSignedTransaction call replaces =>
    simp only [step] at stepped
    split at stepped
    · next tx was =>
      cases stepped
      exact .inr (.inl ⟨call, tx, replaces, rfl, was, rfl⟩)
    · cases stepped
  | mine call =>
    simp only [step] at stepped
    split at stepped
    · next ready =>
      cases stepped
      obtain ⟨tx, signed, same⟩ := Option.map_eq_some_iff.mp ready.2
      exact .inr (.inr ⟨call, tx, rfl, ready.1, signed, same, rfl⟩)
    · cases stepped
  | receive call =>
    simp only [step] at stepped
    split at stepped
    · next tx was =>
      split at stepped
      · cases stepped
        refine .inl ⟨_, ⟨?_, by simp [Stage.handed], by simp⟩, rfl⟩
        constructor <;> simp [was, Event.call, Stage.nonce, Stage.transaction]
      · cases stepped
    · cases stepped
  | fail call =>
    simp only [step] at stepped
    split at stepped
    · next nonce was =>
      cases stepped
      refine .inl ⟨_, ⟨?_, by simp [Event.call, was, Stage.handed], by simp⟩, rfl⟩
      constructor <;> simp [was, Event.call, Stage.nonce, Stage.transaction]
    · next nonce gasPrice was =>
      cases stepped
      refine .inl ⟨_, ⟨?_, by simp [Event.call, was, Stage.handed], by simp⟩, rfl⟩
      constructor <;> simp [was, Event.call, Stage.nonce, Stage.transaction]
    · next tx was =>
      cases stepped
      refine .inl ⟨_, ⟨?_, by simp [Stage.handed], by simp⟩, rfl⟩
      constructor <;> simp [was, Event.call, Stage.nonce, Stage.transaction]
    · next tx was =>
      cases stepped
      refine .inl ⟨_, ⟨?_, by simp [Stage.handed], by simp⟩, rfl⟩
      constructor <;> simp [was, Event.call, Stage.nonce, Stage.transaction]
    · cases stepped

/-- An event that changes the stage of its call. Nothing is mined by it. -/
theorem effect_of_stage {stage : Stage}
    (advances : Advances s.count event (s.stage event.call) stage)
    (minedBefore : next.minedBefore = s.minedBefore) (mined : next.mined = s.mined)
    (entered : next.stage = Function.update s.stage event.call stage) : Effect s event next where
  minedBefore := minedBefore
  begins call same := by
    have here : event.call = call := by rw [same]; rfl
    rw [← here] at same ⊢
    exact advances.begins.mpr same
  begun call := by
    by_cases here : call = event.call
    · subst here
      rw [entered, Function.update_self, ne_eq (s.stage _), advances.begins, eq_comm]
      exact iff_of_true advances.busy (Decidable.em _).symm
    · have elsewhere : .getTransactionCount call ≠ event := by
        rintro rfl
        exact here rfl
      rw [entered, Function.update_of_ne here]
      simp [elsewhere]
  nonce call nonce known := by
    by_cases here : call = event.call
    · subst here
      rw [entered, Function.update_self] at known
      exact advances.nonce nonce known
    · rw [entered, Function.update_of_ne here] at known
      exact .inl known
  kept call tx signed := by
    by_cases here : call = event.call
    · subst here
      rw [State.signed, entered, Function.update_self]
      exact advances.kept tx signed
    · rw [State.signed, entered, Function.update_of_ne here]
      exact signed
  signs call := by
    by_cases here : call = event.call
    · subst here
      rw [State.signed, entered, Function.update_self]
      exact advances.signs
    · have elsewhere : .signTransaction call ≠ event := by
        rintro rfl
        exact here rfl
      rw [State.signed, entered, Function.update_of_ne here]
      simp [elsewhere, State.signed]
  mined := by
    refine .inl ⟨mined, ?_⟩
    rintro call rfl
    exact advances.quiet rfl

omit [DecidableEq κ] in
/-- Mining leaves the calls alone. The nonce has to be the next one of the account. -/
theorem effect_of_mine {call : κ} {tx : Transaction} (signed : s.signed call = some tx)
    (same : tx.nonce = s.count) (minedBefore : next.minedBefore = s.minedBefore)
    (mined : next.mined = call :: s.mined) (stages : next.stage = s.stage) :
    Effect s (.mine call) next where
  minedBefore := minedBefore
  begins other impossible := by cases impossible
  begun other := by simp [stages]
  nonce other nonce known := by
    rw [stages] at known
    exact .inl known
  kept other otherTx known := by
    rw [State.signed, stages]
    exact known
  signs other := by simp [State.signed, stages]
  mined := .inr ⟨call, tx, rfl, mined, signed, same⟩

/-- Sending changes the stage of the call, and the pool. Whether it is taken or turned away, the
call keeps its transaction. -/
theorem send_stage (call : κ) (tx : Transaction) (replaces : Bool) :
    (s.send call tx replaces).minedBefore = s.minedBefore ∧
      (s.send call tx replaces).mined = s.mined ∧
      ∃ stage, (s.send call tx replaces).stage = Function.update s.stage call stage ∧
        (stage = .sent tx ∨ stage = .failed (some tx)) := by
  unfold State.send
  split
  · exact ⟨rfl, rfl, _, rfl, .inr rfl⟩
  · split
    · exact ⟨rfl, rfl, _, rfl, .inl rfl⟩
    · split
      · exact ⟨rfl, rfl, _, rfl, .inl rfl⟩
      · exact ⟨rfl, rfl, _, rfl, .inr rfl⟩

/-- What a possible event does to the calls and to what is mined. The cases are those of the
events. -/
theorem step_effect (stepped : step config requests s event = some next) :
    Effect s event next := by
  rcases step_cases stepped with ⟨stage, enters, rfl⟩ | ⟨call, tx, replaces, rfl, was, rfl⟩ |
    ⟨call, tx, rfl, _, signed, same, rfl⟩
  · exact effect_of_stage enters.toAdvances rfl rfl rfl
  · obtain ⟨minedBefore, mined, stage, entered, kind⟩ := @send_stage κ _ s call tx replaces
    refine effect_of_stage ?_ minedBefore mined entered
    rcases kind with rfl | rfl
    · constructor <;> simp [was, Event.call, Stage.nonce, Stage.transaction]
    · constructor <;> simp [was, Event.call, Stage.nonce, Stage.transaction]
  · exact effect_of_mine signed same rfl rfl rfl

end Steps

end BlockchainService

end OpenBeach
