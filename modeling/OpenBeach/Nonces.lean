import OpenBeach.BlockchainService

/-!
# When concurrent mints keep out of each other's way

A call that reads the transaction count gets the nonce that is mined next. Whoever reads
it before that transaction is mined gets the same one. So the transactions have different
nonces exactly if of any two calls one was mined before the other began.
-/

namespace OpenBeach

open Schedules

namespace BlockchainService

variable {κ : Type} [DecidableEq κ] {config : Config} {requests : κ → Request}
  {s next : State κ} {event : Event κ} {events : List (Event κ)}

/-- Of any two calls that sign, one is mined before the other reads the transaction count. Calls
that never sign may run at any time. -/
def Serial (events : List (Event κ)) : Prop :=
  ∀ first second, first ≠ second → .signTransaction first ∈ events →
    .signTransaction second ∈ events →
      Precedes events (.mine first) (.getTransactionCount second) ∨
        Precedes events (.mine second) (.getTransactionCount first)

/-- What is mined carries the numbers up to the count, and a call goes by the count at the
time it read it. -/
structure Ledger (events : List (Event κ)) (s : State κ) : Prop where
  begun : ∀ call, .getTransactionCount call ∈ events ↔ s.stage call ≠ .idle
  signs : ∀ call, .signTransaction call ∈ events ↔ ∃ tx, s.signed call = some tx
  mines : ∀ call, .mine call ∈ events ↔ call ∈ s.mined
  spent : ∀ call ∈ s.mined, ∃ tx, s.signed call = some tx ∧ tx.nonce < s.count
  covered : ∀ nonce, s.minedBefore ≤ nonce → nonce < s.count →
    ∃ call ∈ s.mined, ∃ tx, s.signed call = some tx ∧ tx.nonce = nonce
  drawn : ∀ call nonce, (s.stage call).nonce = some nonce →
    s.minedBefore ≤ nonce ∧ nonce ≤ s.count
  later : ∀ first second, Precedes events (.mine first) (.getTransactionCount second) →
    ∀ earliest latest, (s.stage first).nonce = some earliest →
      (s.stage second).nonce = some latest → earliest < latest
  earlier : ∀ call latest, (s.stage call).nonce = some latest →
    ∀ nonce, s.minedBefore ≤ nonce → nonce < latest →
      ∃ other tx, s.signed other = some tx ∧ tx.nonce = nonce ∧
        Precedes events (.mine other) (.getTransactionCount call)

omit [DecidableEq κ] in
/-- Before the first event no nonce is spent or drawn, and the pool is empty. All parts of it are
about calls that have begun. -/
theorem ledger_initial (minedBefore : Nat) : Ledger [] (State.initial κ minedBefore) where
  begun call := by simp [State.initial]
  signs call := by simp [State.initial, State.signed, Stage.transaction]
  mines call := by simp [State.initial]
  spent call member := by simp [State.initial] at member
  covered nonce low high := by
    simp only [State.initial, State.count, List.length_nil] at low high
    omega
  drawn call nonce known := by simp [State.initial, Stage.nonce, Stage.transaction] at known
  later first second precedes := absurd precedes not_precedes_nil
  earlier call latest known := by simp [State.initial, Stage.nonce, Stage.transaction] at known

section Preservation

omit [DecidableEq κ]

/-- The count stays, or the call with the next nonce is mined. Nothing else than mining moves it,
and it moves by one. -/
theorem Effect.count (effect : Effect s event next) :
    (next.mined = s.mined ∧ next.count = s.count ∧ ∀ call, event ≠ .mine call) ∨
      ∃ call tx, event = .mine call ∧ next.mined = call :: s.mined ∧
        next.count = s.count + 1 ∧ s.signed call = some tx ∧ tx.nonce = s.count := by
  rcases effect.mined with ⟨same, quiet⟩ | ⟨call, tx, mines, grown, signed, spent⟩
  · exact .inl ⟨same, by rw [State.count, State.count, effect.minedBefore, same], quiet⟩
  · refine .inr ⟨call, tx, mines, grown, ?_, signed, spent⟩
    rw [State.count, State.count, effect.minedBefore, grown, List.length_cons]
    omega

/-- The count of the account never falls, since mined transactions stay mined. So a nonce that was
spent once stays spent. -/
theorem Effect.count_le (effect : Effect s event next) : s.count ≤ next.count := by
  rcases effect.count with ⟨_, same, _⟩ | ⟨_, _, _, _, grown, _⟩ <;> omega

/-- A call that has signed has read the count before. It drew its nonce from the answer. -/
theorem Ledger.begun_of_signed (ledger : Ledger events s) {call : κ} {tx : Transaction}
    (signed : s.signed call = some tx) : .getTransactionCount call ∈ events := by
  rw [ledger.begun]
  intro idle
  simp [State.signed, idle, Stage.transaction] at signed

/-- A call reads the count only once. A call that has begun is not idle again. -/
theorem Effect.read_once (effect : Effect s event next) (ledger : Ledger events s) {call : κ}
    (begun : .getTransactionCount call ∈ events) : event ≠ .getTransactionCount call :=
  fun again => (ledger.begun call).mp begun (effect.begins call again)

/-- After an event, every mined transaction still has a nonce below the count. The count is the
next nonce of the account at any time. -/
theorem Effect.spent (effect : Effect s event next) (ledger : Ledger events s) :
    ∀ call ∈ next.mined, ∃ tx, next.signed call = some tx ∧ tx.nonce < next.count := by
  intro call member
  rcases effect.count with ⟨same, steady, _⟩ | ⟨other, tx, _, grown, counted, signed, spent⟩
  · rw [same] at member
    obtain ⟨tx, signed, below⟩ := ledger.spent call member
    exact ⟨tx, effect.kept call tx signed, by omega⟩
  · rw [grown] at member
    rcases List.mem_cons.mp member with rfl | member
    · exact ⟨tx, effect.kept call tx signed, by omega⟩
    · obtain ⟨tx, signed, below⟩ := ledger.spent call member
      exact ⟨tx, effect.kept call tx signed, by omega⟩

/-- After an event, every nonce between the count at the start and the count now is still the
nonce of a mined transaction. -/
theorem Effect.covered (effect : Effect s event next) (ledger : Ledger events s) :
    ∀ nonce, next.minedBefore ≤ nonce → nonce < next.count →
      ∃ call ∈ next.mined, ∃ tx, next.signed call = some tx ∧ tx.nonce = nonce := by
  intro nonce low high
  rw [effect.minedBefore] at low
  rcases effect.count with ⟨same, steady, _⟩ | ⟨other, tx, _, grown, counted, signed, spent⟩
  · obtain ⟨call, member, tx, signed, found⟩ := ledger.covered nonce low (by omega)
    exact ⟨call, same ▸ member, tx, effect.kept call tx signed, found⟩
  · rw [grown]
    by_cases last : nonce = s.count
    · exact ⟨other, List.mem_cons_self, tx, effect.kept other tx signed, spent.trans last.symm⟩
    · obtain ⟨call, member, tx, signed, found⟩ := ledger.covered nonce low (by omega)
      exact ⟨call, List.mem_cons_of_mem _ member, tx, effect.kept call tx signed, found⟩

/-- After an event, every nonce that a call has read still lies between the count at the start and
the count now. -/
theorem Effect.drawn (effect : Effect s event next) (ledger : Ledger events s) :
    ∀ call nonce, (next.stage call).nonce = some nonce →
      next.minedBefore ≤ nonce ∧ nonce ≤ next.count := by
  intro call nonce known
  have grows := effect.count_le
  rw [effect.minedBefore]
  rcases effect.nonce call nonce known with known | ⟨_, rfl⟩
  · have bounds := ledger.drawn call nonce known
    omega
  · have start : s.minedBefore ≤ s.count := Nat.le_add_right _ _
    omega

/-- What is mined when a call reads the count has a lower nonce. The count had passed the nonce of
the mined one by then. -/
theorem Effect.later (effect : Effect s event next) (ledger : Ledger events s) :
    ∀ first second,
      Precedes (events ++ [event]) (.mine first) (.getTransactionCount second) →
        ∀ earliest latest, (next.stage first).nonce = some earliest →
          (next.stage second).nonce = some latest → earliest < latest := by
  intro first second precedes earliest latest knownFirst knownSecond
  have mined : first ∈ s.mined := by
    rw [← ledger.mines]
    rcases precedes_append_singleton.mp precedes with old | ⟨_, member⟩
    · exact old.mem_first
    · exact member
  obtain ⟨tx, signed, below⟩ := ledger.spent first mined
  have knownBefore : (s.stage first).nonce = some earliest := by
    rcases effect.nonce first earliest knownFirst with known | ⟨again, _⟩
    · exact known
    · exact absurd again (effect.read_once ledger (ledger.begun_of_signed signed))
  have own : tx.nonce = earliest := by
    simpa [Stage.nonce_eq signed] using knownBefore
  rcases precedes_append_singleton.mp precedes with old | ⟨reads, _⟩
  · rcases effect.nonce second latest knownSecond with known | ⟨again, _⟩
    · exact ledger.later first second old earliest latest knownBefore known
    · exact absurd again (effect.read_once ledger old.mem)
  · rcases effect.nonce second latest knownSecond with known | ⟨_, rfl⟩
    · have idle := effect.begins second reads.symm
      simp [idle, Stage.nonce, Stage.transaction] at known
    · omega

/-- All lower nonces were mined when the call read the count. The count it read is the number of
transactions mined until then. -/
theorem Effect.earlier (effect : Effect s event next) (ledger : Ledger events s) :
    ∀ call latest, (next.stage call).nonce = some latest →
      ∀ nonce, next.minedBefore ≤ nonce → nonce < latest →
        ∃ other tx, next.signed other = some tx ∧ tx.nonce = nonce ∧
          Precedes (events ++ [event]) (.mine other) (.getTransactionCount call) := by
  intro call latest known nonce low high
  rw [effect.minedBefore] at low
  rcases effect.nonce call latest known with known | ⟨reads, rfl⟩
  · obtain ⟨other, tx, signed, found, precedes⟩ :=
      ledger.earlier call latest known nonce low high
    exact ⟨other, tx, effect.kept other tx signed, found,
      precedes_append_singleton.mpr (.inl precedes)⟩
  · obtain ⟨other, member, tx, signed, found⟩ := ledger.covered nonce low high
    exact ⟨other, tx, effect.kept other tx signed, found,
      precedes_append_singleton.mpr (.inr ⟨reads.symm, (ledger.mines other).mpr member⟩)⟩

/-- Every event keeps the ledger. Each part has its own lemma above. -/
theorem Effect.ledger (effect : Effect s event next) (ledger : Ledger events s) :
    Ledger (events ++ [event]) next where
  begun call := by
    rw [effect.begun, ← ledger.begun, List.mem_append, List.mem_singleton]
  signs call := by
    rw [effect.signs, ← ledger.signs, List.mem_append, List.mem_singleton]
  mines call := by
    rw [List.mem_append, List.mem_singleton, ledger.mines]
    rcases effect.mined with ⟨same, quiet⟩ | ⟨other, tx, rfl, grown, _⟩
    · have elsewhere : .mine call ≠ event := fun same => quiet call same.symm
      simp [same, elsewhere]
    · rw [grown, List.mem_cons, or_comm, Event.mine.injEq]
  spent := effect.spent ledger
  covered := effect.covered ledger
  drawn := effect.drawn ledger
  later := effect.later ledger
  earlier := effect.earlier ledger

end Preservation

/-- The run lemma: the ledger holds after every run. The induction is on the events, and the step
is the lemma above. -/
theorem ledger (minedBefore : Nat)
    (ran : run (step config requests) (State.initial κ minedBefore) events = some s) :
    Ledger events s :=
  run_induction (ledger_initial minedBefore)
    (fun _ _ _ _ known stepped => (step_effect stepped).ledger known) ran

/-- Two calls that signed the same nonce. At most one of their transactions can be mined. -/
def Clash (s : State κ) (call : κ) : Prop :=
  ∃ other tx otherTx, other ≠ call ∧ s.signed call = some tx ∧ s.signed other = some otherTx ∧
    tx.nonce = otherTx.nonce

/-- Only what was handed over is mined or waits, what was handed over is not forgotten, and
only calls with the nonce of another are turned away or replaced. -/
structure Delivery (s : State κ) : Prop where
  handed : ∀ call, call ∈ s.pool ∨ call ∈ s.mined → (s.stage call).handed = true
  delivered : ∀ call tx, s.stage call = .sent tx →
    call ∈ s.mined ∨ call ∈ s.pool ∨ call ∈ s.replaced
  clash : ∀ call, call ∈ s.refused ∨ call ∈ s.replaced → Clash s call

section Deliveries

omit [DecidableEq κ] in
/-- Before the first event no call has sent anything. So there is nothing that could have been
delivered or lost. -/
theorem delivery_initial (minedBefore : Nat) : Delivery (State.initial κ minedBefore) where
  handed call member := by simp [State.initial] at member
  delivered call tx sent := by simp [State.initial] at sent
  clash call member := by simp [State.initial] at member

omit [DecidableEq κ] in
/-- Two calls that share a nonce go on sharing it. Signed transactions do not change. -/
theorem Effect.clash (effect : Effect s event next) {call : κ} (clash : Clash s call) :
    Clash next call := by
  obtain ⟨other, tx, otherTx, different, signed, otherSigned, same⟩ := clash
  exact ⟨other, tx, otherTx, different, effect.kept call tx signed,
    effect.kept other otherTx otherSigned, same⟩

/-- A call that goes on without the node. The pool and the lists of mined and refused calls stay
as they were. -/
theorem Delivery.enter (delivery : Delivery s) {stage : Stage}
    (effect : Effect s event (s.enter event.call stage))
    (enters : Enters s.count event (s.stage event.call) stage) :
    Delivery (s.enter event.call stage) where
  handed call member := by
    have before := delivery.handed call member
    by_cases here : call = event.call
    · subst here
      simpa [State.enter] using enters.handed before
    · simpa [State.enter, here] using before
  delivered call tx sent := by
    by_cases here : call = event.call
    · subst here
      exact absurd (by simpa [State.enter] using sent) (enters.unsent tx)
    · exact delivery.delivered call tx (by simpa [State.enter, here] using sent)
  clash call member := effect.clash (delivery.clash call member)

/-- A call that is turned away. The clash accounts for it. -/
theorem Delivery.refuse (delivery : Delivery s) {call : κ} {tx : Transaction}
    (effect : Effect s event (s.refuse call tx)) (clash : Clash s call) :
    Delivery (s.refuse call tx) where
  handed other member := by
    by_cases here : other = call
    · subst here
      simp [State.refuse, Stage.handed]
    · simpa [State.refuse, here] using delivery.handed other member
  delivered other otherTx sent := by
    by_cases here : other = call
    · subst here
      simp [State.refuse] at sent
    · exact delivery.delivered other otherTx (by simpa [State.refuse, here] using sent)
  clash other member := by
    apply effect.clash
    simp only [State.refuse, List.mem_cons, or_assoc] at member
    rcases member with rfl | member
    · exact clash
    · exact delivery.clash other member

/-- A call whose transaction the node takes. Those that it replaces share its nonce, which
accounts for them. -/
theorem Delivery.accept (delivery : Delivery s) {call : κ} {tx : Transaction} {dropped : List κ}
    (effect : Effect s event (s.accept call tx dropped))
    (clash : ∀ other ∈ dropped, Clash s other) : Delivery (s.accept call tx dropped) where
  handed other member := by
    by_cases here : other = call
    · subst here
      simp [State.accept, Stage.handed]
    · have before : other ∈ s.pool ∨ other ∈ s.mined := by
        simp only [State.accept, List.mem_cons, List.mem_filter, here, false_or] at member
        exact member.imp_left And.left
      simpa [State.accept, here] using delivery.handed other before
  delivered other otherTx sent := by
    by_cases here : other = call
    · exact .inr (.inl (by simp [State.accept, here]))
    · have before := delivery.delivered other otherTx (by simpa [State.accept, here] using sent)
      by_cases out : other ∈ dropped
      · exact .inr (.inr (by simp [State.accept, out]))
      · simpa [State.accept, here, out] using before
  clash other member := by
    apply effect.clash
    simp only [State.accept, List.mem_append] at member
    rcases member with refused | dropped | replaced
    · exact delivery.clash other (.inl refused)
    · exact clash other dropped
    · exact delivery.clash other (.inr replaced)

/-- A transaction that is mined waits no more. It is delivered, once and for all. -/
theorem Delivery.confirm (delivery : Delivery s) {call : κ} (waits : call ∈ s.pool)
    (effect : Effect s event (s.confirm call)) : Delivery (s.confirm call) where
  handed other member := by
    apply delivery.handed other
    rcases member with waiting | mined
    · exact .inl (List.mem_of_mem_erase waiting)
    · rcases List.mem_cons.mp mined with rfl | mined
      · exact .inl waits
      · exact .inr mined
  delivered other tx sent := by
    by_cases here : other = call
    · exact .inl (here ▸ List.mem_cons_self)
    · rcases delivery.delivered other tx sent with mined | waiting | replaced
      · exact .inl (List.mem_cons_of_mem _ mined)
      · exact .inr (.inl ((List.mem_erase_of_ne here).mpr waiting))
      · exact .inr (.inr replaced)
  clash other member := effect.clash (delivery.clash other member)

omit [DecidableEq κ] in
/-- Those that wait with a nonce have signed it. The pool keeps calls, and their transactions are
read off their stages. -/
theorem mem_waiting {call : κ} {nonce : Nat} : call ∈ s.waiting nonce ↔
    call ∈ s.pool ∧ ∃ tx, s.signed call = some tx ∧ tx.nonce = nonce := by
  simp [State.waiting, Option.map_eq_some_iff]

omit [DecidableEq κ] in
/-- Who is about to send has handed nothing over yet. -/
theorem Delivery.ne_of_signed (delivery : Delivery s) {call other : κ} {tx : Transaction}
    (was : s.stage call = .signed tx) (member : other ∈ s.pool ∨ other ∈ s.mined) :
    other ≠ call := by
  rintro rfl
  have handed := delivery.handed other member
  simp [was, Stage.handed] at handed

/-- The node turns away and drops only calls with the nonce of another. -/
theorem Delivery.send (delivery : Delivery s) (ledger : Ledger events s) {call : κ}
    {tx : Transaction} {replaces : Bool} (was : s.stage call = .signed tx)
    (effect : Effect s event (s.send call tx replaces)) : Delivery (s.send call tx replaces) := by
  have signed : s.signed call = some tx := by simp [State.signed, was, Stage.transaction]
  have waits : ∀ other ∈ s.waiting tx.nonce, ∃ otherTx, other ≠ call ∧
      s.signed other = some otherTx ∧ tx.nonce = otherTx.nonce := by
    intro other member
    obtain ⟨pooled, otherTx, otherSigned, same⟩ := mem_waiting.mp member
    exact ⟨otherTx, delivery.ne_of_signed was (.inl pooled), otherSigned, same.symm⟩
  unfold State.send at effect ⊢
  split at effect
  · next low =>
    rw [if_pos low]
    have bounds := ledger.drawn call tx.nonce (Stage.nonce_eq signed)
    obtain ⟨other, mined, otherTx, otherSigned, same⟩ :=
      ledger.covered tx.nonce bounds.1 low
    exact delivery.refuse effect ⟨other, tx, otherTx, delivery.ne_of_signed was (.inr mined),
      signed, otherSigned, same.symm⟩
  · next high =>
    rw [if_neg high]
    split at effect
    · next free =>
      rw [if_pos free]
      exact delivery.accept effect (by simp)
    · next taken =>
      rw [if_neg taken]
      split at effect
      · next replacing =>
        rw [if_pos replacing]
        apply delivery.accept effect
        intro other member
        obtain ⟨otherTx, different, otherSigned, same⟩ := waits other member
        exact ⟨call, otherTx, tx, different.symm, otherSigned, signed, same.symm⟩
      · next refusing =>
        rw [if_neg refusing]
        obtain ⟨other, member⟩ := List.exists_mem_of_ne_nil _ taken
        obtain ⟨otherTx, different, otherSigned, same⟩ := waits other member
        exact delivery.refuse effect ⟨other, tx, otherTx, different, signed, otherSigned, same⟩

/-- Every event keeps what is known about deliveries. -/
theorem step_delivery (delivery : Delivery s) (ledger : Ledger events s)
    (stepped : step config requests s event = some next) : Delivery next := by
  have effect := step_effect stepped
  rcases step_cases stepped with ⟨stage, enters, rfl⟩ | ⟨call, tx, replaces, rfl, was, rfl⟩ |
    ⟨call, tx, rfl, waits, signed, same, rfl⟩
  · exact delivery.enter effect enters
  · exact delivery.send ledger was effect
  · exact delivery.confirm waits effect

end Deliveries

/-- The run lemma: after every run it is known where each call's transaction is. -/
theorem delivery (minedBefore : Nat)
    (ran : run (step config requests) (State.initial κ minedBefore) events = some s) :
    Delivery s := by
  have both : Ledger events s ∧ Delivery s := by
    refine run_induction (P := fun events s => Ledger events s ∧ Delivery s)
      ⟨ledger_initial minedBefore, delivery_initial minedBefore⟩ ?_ ran
    intro events before event after known stepped
    exact ⟨(step_effect stepped).ledger known.1, step_delivery known.2 known.1 stepped⟩
  exact both.2

section Conflicts

omit [DecidableEq κ]

/-- No two calls signed the same nonce. -/
def DistinctNonces (s : State κ) : Prop :=
  ∀ first second, first ≠ second → ∀ tx otherTx, s.signed first = some tx →
    s.signed second = some otherTx → tx.nonce ≠ otherTx.nonce

/-- A call with a lower nonce than another was mined before the other read the count, if
no other call has its nonce. -/
theorem Ledger.precedes (ledger : Ledger events s) (distinct : DistinctNonces s)
    {first second : κ} {tx otherTx : Transaction} (signed : s.signed first = some tx)
    (otherSigned : s.signed second = some otherTx) (lower : tx.nonce < otherTx.nonce) :
    Precedes events (.mine first) (.getTransactionCount second) := by
  have low := (ledger.drawn first tx.nonce (Stage.nonce_eq signed)).1
  obtain ⟨call, callTx, callSigned, same, precedes⟩ :=
    ledger.earlier second otherTx.nonce (Stage.nonce_eq otherSigned) tx.nonce low lower
  have here : call = first := by
    by_contra different
    exact distinct call first different callTx tx callSigned signed same
  exact here ▸ precedes

/-- The nonces differ exactly if the calls are served one after the other. -/
theorem Ledger.distinct_iff (ledger : Ledger events s) : DistinctNonces s ↔ Serial events := by
  constructor
  · intro distinct first second different signs otherSigns
    obtain ⟨tx, signed⟩ := (ledger.signs first).mp signs
    obtain ⟨otherTx, otherSigned⟩ := (ledger.signs second).mp otherSigns
    rcases Nat.lt_or_gt_of_ne
      (distinct first second different tx otherTx signed otherSigned) with lower | higher
    · exact .inl (ledger.precedes distinct signed otherSigned lower)
    · exact .inr (ledger.precedes distinct otherSigned signed higher)
  · intro serial first second different tx otherTx signed otherSigned
    have nonce := Stage.nonce_eq signed
    have otherNonce := Stage.nonce_eq otherSigned
    rcases serial first second different ((ledger.signs first).mpr ⟨tx, signed⟩)
      ((ledger.signs second).mpr ⟨otherTx, otherSigned⟩) with before | after
    · exact Nat.ne_of_lt (ledger.later first second before _ _ nonce otherNonce)
    · exact Nat.ne_of_gt (ledger.later second first after _ _ otherNonce nonce)

/-- A transaction that is not mined has the next nonce. -/
theorem Ledger.next_nonce (ledger : Ledger events s) (distinct : DistinctNonces s) {call : κ}
    {tx : Transaction} (signed : s.signed call = some tx) :
    call ∈ s.mined ∨ tx.nonce = s.count := by
  have bounds := ledger.drawn call tx.nonce (Stage.nonce_eq signed)
  rcases Nat.lt_or_eq_of_le bounds.2 with spent | next
  · obtain ⟨other, mined, otherTx, otherSigned, same⟩ :=
      ledger.covered tx.nonce bounds.1 spent
    have here : other = call := by
      by_contra different
      exact distinct other call different otherTx tx otherSigned signed same
    exact .inl (here ▸ mined)
  · exact .inr next

/-- Calls with different nonces are neither turned away nor replaced. -/
theorem Delivery.quiet (delivery : Delivery s) (distinct : DistinctNonces s) :
    s.refused = [] ∧ s.replaced = [] := by
  have quiet : ∀ call, ¬ (call ∈ s.refused ∨ call ∈ s.replaced) := by
    intro call member
    obtain ⟨other, tx, otherTx, different, signed, otherSigned, same⟩ :=
      delivery.clash call member
    exact distinct other call different otherTx tx otherSigned signed same.symm
  exact ⟨List.eq_nil_iff_forall_not_mem.mpr fun call member => quiet call (.inl member),
    List.eq_nil_iff_forall_not_mem.mpr fun call member => quiet call (.inr member)⟩

end Conflicts

/-- Calls do not clobber each other: their nonces differ, no call is turned away and no
transaction is replaced, what is signed is mined or next, and what is sent is mined or can
be mined. -/
structure Unclobbered (config : Config) (requests : κ → Request) (s : State κ) : Prop where
  distinct : ∀ first second, first ≠ second → ∀ tx otherTx, s.signed first = some tx →
    s.signed second = some otherTx → tx.nonce ≠ otherTx.nonce
  accepted : s.refused = []
  kept : s.replaced = []
  next : ∀ call tx, s.signed call = some tx → call ∈ s.mined ∨ tx.nonce = s.count
  mineable : ∀ call tx, s.stage call = .sent tx →
    call ∈ s.mined ∨ (step config requests s (.mine call)).isSome = true

/-- Calls do not clobber each other exactly if of any two that sign one is mined before the other
reads the transaction count. The count of the account is read three steps before the transaction
is sent. Whoever reads it before the other's transaction is mined signs the same nonce. -/
theorem unclobbered_iff (minedBefore : Nat)
    (ran : run (step config requests) (State.initial κ minedBefore) events = some s) :
    Unclobbered config requests s ↔ Serial events := by
  have ledger := ledger minedBefore ran
  have delivery := delivery minedBefore ran
  rw [← ledger.distinct_iff]
  constructor
  · intro unclobbered
    exact unclobbered.distinct
  · intro distinct
    obtain ⟨accepted, kept⟩ := delivery.quiet distinct
    refine ⟨distinct, accepted, kept, fun call tx => ledger.next_nonce distinct, ?_⟩
    intro call tx sent
    have signed : s.signed call = some tx := by simp [State.signed, sent, Stage.transaction]
    rcases ledger.next_nonce distinct signed with mined | next
    · exact .inl mined
    · rcases delivery.delivered call tx sent with mined | waits | replaced
      · exact .inl mined
      · right
        simp [step, waits, signed, next]
      · rw [kept] at replaced
        cases replaced

section Sample

/-- The account of the sample and its contract. -/
def sampleConfig : Config := ⟨0xA11CE, 0xC0DE⟩

/-- Two requests for different tokens of one owner. -/
def sampleRequests (call : Fin 2) : Request := ⟨call.val, "QmToken", "0xB0B"⟩

/-- Two calls read the transaction count before either is mined. -/
def racing : List (Event (Fin 2)) :=
  [.getTransactionCount 0, .getTransactionCount 1, .getGasPrice 0 30, .getGasPrice 1 30,
    .signTransaction 0, .signTransaction 1, .sendSignedTransaction 0 false, .mine 0,
    .sendSignedTransaction 1 false, .receive 0]

/-- The second call begins when the first is mined. -/
def queueing : List (Event (Fin 2)) :=
  [.getTransactionCount 0, .getGasPrice 0 30, .signTransaction 0, .sendSignedTransaction 0 false,
    .mine 0, .getTransactionCount 1, .getGasPrice 1 30, .receive 0, .signTransaction 1,
    .sendSignedTransaction 1 false]

/-- In that schedule each call waits for the one before it. -/
theorem queueing_serial : Serial queueing := by
  have order : Precedes queueing (.mine 0) (.getTransactionCount 1) :=
    ⟨queueing.take 5, queueing.drop 6, rfl, by decide⟩
  have pairs : ∀ first second : Fin 2, first ≠ second →
      first = 0 ∧ second = 1 ∨ first = 1 ∧ second = 0 := by decide
  intro first second different _ _
  rcases pairs first second different with ⟨rfl, rfl⟩ | ⟨rfl, rfl⟩
  · exact .inl order
  · exact .inr order

/-- So the node takes both transactions, as their calls signed them. -/
theorem queueing_unclobbered : ∃ s,
    run (step sampleConfig sampleRequests) (State.initial (Fin 2) 7) queueing = some s ∧
      Unclobbered sampleConfig sampleRequests s := by
  obtain ⟨s, ran⟩ : ∃ s,
    run (step sampleConfig sampleRequests) (State.initial (Fin 2) 7) queueing = some s := ⟨_, rfl⟩
  exact ⟨s, ran, (unclobbered_iff 7 ran).mpr queueing_serial⟩

/-- Both calls sign the nonce 7, and the node turns the second away. So only one of the two tokens
is minted. -/
theorem racing_clobbered : ∃ s,
    run (step sampleConfig sampleRequests) (State.initial (Fin 2) 7) racing = some s ∧
      (s.signed 0).map Transaction.nonce = some 7 ∧
      (s.signed 1).map Transaction.nonce = some 7 ∧ s.refused = [1] ∧
      ¬ Unclobbered sampleConfig sampleRequests s := by
  refine ⟨_, rfl, rfl, rfl, rfl, ?_⟩
  intro unclobbered
  exact absurd unclobbered.accepted (by decide)

end Sample

end BlockchainService

end OpenBeach
