import OpenBeach.Nonces

/-!
# What is mined for the calls

Whatever the order of the awaited steps, and however calls fail, the transactions of the
account are mined with consecutive nonces, each as its call made it. A call that returns a
hash was mined once, a call that fails may have been mined all the same, and a transaction
that was sent is lost only to another with its nonce.
-/

namespace OpenBeach

open Schedules

namespace BlockchainService

variable {κ : Type} [DecidableEq κ] {config : Config} {requests : κ → Request}
  {s next : State κ} {event : Event κ} {events : List (Event κ)} {call : κ} {tx : Transaction}

/-- What is signed is made of the arguments of its call, what is mined goes by consecutive nonces,
the first first, and what returned is mined. -/
structure Minted (config : Config) (requests : κ → Request) (s : State κ) : Prop where
  made : ∀ call tx, s.signed call = some tx →
    ∃ gasPrice, tx = transaction config (requests call) tx.nonce gasPrice
  ordered : ∀ position call, s.mined.reverse[position]? = some call →
    ∃ tx, s.signed call = some tx ∧ tx.nonce = s.minedBefore + position
  returned : ∀ call tx, s.stage call = .returned tx → call ∈ s.mined

section Steps

/-- A step of one call leaves the stages of the others. So what is known of a call is known until
its own next step. -/
theorem stage_of_ne (stepped : step config requests s event = some next)
    (different : call ≠ event.call) : next.stage call = s.stage call := by
  rcases step_cases stepped with ⟨stage, _, rfl⟩ | ⟨other, tx, replaces, rfl, _, rfl⟩ |
    ⟨other, tx, rfl, _, _, _, rfl⟩
  · exact Function.update_of_ne different _ _
  · obtain ⟨_, _, stage, entered, _⟩ := @send_stage κ _ s other tx replaces
    rw [entered]
    exact Function.update_of_ne different _ _
  · rfl

/-- What a call signs is made of its arguments. The price of the gas is what the node answered. -/
theorem signs_made (stepped : step config requests s (.signTransaction call) = some next)
    (signed : next.signed call = some tx) :
    ∃ gasPrice, tx = transaction config (requests call) tx.nonce gasPrice := by
  simp only [step] at stepped
  split at stepped
  · next nonce gasPrice was =>
    cases stepped
    simp only [State.signed, State.enter, Function.update_self, Stage.transaction,
      Option.some.injEq] at signed
    subst signed
    exact ⟨gasPrice, rfl⟩
  · cases stepped

/-- Only what is mined returns. The receipt is what the call waits for. -/
theorem returns_mined (stepped : step config requests s event = some next)
    (returned : next.stage call = .returned tx) :
    s.stage call = .returned tx ∨ call ∈ s.mined := by
  by_cases same : call = event.call
  · subst same
    cases event with
    | receive call =>
      simp only [step] at stepped
      split at stepped
      · split at stepped
        · next mined => exact .inr mined
        · cases stepped
      · cases stepped
    | mine call =>
      simp only [step] at stepped
      split at stepped
      · cases stepped
        exact .inl returned
      · cases stepped
    | getTransactionCount call | getGasPrice call gasPrice | signTransaction call | fail call =>
      simp only [step] at stepped
      split at stepped <;> cases stepped <;> simp [Event.call, State.enter] at returned
    | sendSignedTransaction call replaces =>
      simp only [step] at stepped
      split at stepped
      · next other was =>
        cases stepped
        obtain ⟨_, _, stage, entered, kind⟩ := @send_stage κ _ s call other replaces
        rw [entered, Event.call, Function.update_self] at returned
        rcases kind with rfl | rfl <;> cases returned
      · cases stepped
  · rw [stage_of_ne stepped same] at returned
    exact .inl returned

omit [DecidableEq κ] in
/-- Before the first event nothing is mined and nobody was told anything. Every part of it is
about calls that have begun. -/
theorem minted_initial (minedBefore : Nat) :
    Minted config requests (State.initial κ minedBefore) where
  made call tx signed := by simp [State.initial, State.signed, Stage.transaction] at signed
  ordered position call mined := by simp [State.initial] at mined
  returned call tx stage := by simp [State.initial] at stage

/-- The step lemma. What was returned before stays so, and a new return is about a mined call. -/
theorem Minted.step (minted : Minted config requests s)
    (stepped : step config requests s event = some next) : Minted config requests next := by
  have effect := step_effect stepped
  constructor
  · intro call tx signed
    rcases (effect.signs call).mp ⟨tx, signed⟩ with ⟨before, was⟩ | signs
    · obtain rfl := Option.some.inj ((effect.kept call before was).symm.trans signed)
      exact minted.made call before was
    · subst signs
      exact signs_made stepped signed
  · intro position call mined
    have earlier : s.mined.reverse[position]? = some call →
        ∃ tx, next.signed call = some tx ∧ tx.nonce = next.minedBefore + position := by
      intro found
      obtain ⟨tx, signed, nonce⟩ := minted.ordered position call found
      exact ⟨tx, effect.kept call tx signed, by rw [effect.minedBefore, nonce]⟩
    rcases effect.mined with ⟨same, _⟩ | ⟨last, tx, _, same, signed, nonce⟩
    · exact earlier (same ▸ mined)
    · rw [same, List.reverse_cons, List.getElem?_append] at mined
      split at mined
      · exact earlier mined
      · next beyond =>
        rw [List.length_reverse] at beyond mined
        rw [List.getElem?_singleton] at mined
        split at mined
        · cases mined
          refine ⟨tx, effect.kept _ tx signed, ?_⟩
          rw [effect.minedBefore, nonce, State.count]
          omega
        · cases mined
  · intro call tx returned
    have grows : ∀ call ∈ s.mined, call ∈ next.mined := by
      intro call member
      rcases effect.mined with ⟨same, _⟩ | ⟨last, _, _, same, _⟩
      · exact same ▸ member
      · rw [same]
        exact List.mem_cons_of_mem _ member
    rcases returns_mined stepped returned with before | mined
    · exact grows call (minted.returned call tx before)
    · exact grows call mined

/-- The run lemma. The induction is on the events. -/
theorem minted (minedBefore : Nat)
    (ran : run (step config requests) (State.initial κ minedBefore) events = some s) :
    Minted config requests s ∧ s.minedBefore = minedBefore := by
  refine run_induction (P := fun _ s => Minted config requests s ∧ s.minedBefore = minedBefore)
    ⟨minted_initial minedBefore, rfl⟩ ?_ ran
  intro events before event after known stepped
  exact ⟨known.1.step stepped, (step_effect stepped).minedBefore.trans known.2⟩

end Steps

section Calls

omit [DecidableEq κ] in
/-- Of the calls that signed one nonce at most one is mined. The nonces of mined transactions are
consecutive. -/
theorem Minted.only (minted : Minted config requests s) {first second : κ}
    (mined : first ∈ s.mined) (alsoMined : second ∈ s.mined) {tx other : Transaction}
    (signed : s.signed first = some tx) (alsoSigned : s.signed second = some other)
    (same : tx.nonce = other.nonce) : first = second := by
  obtain ⟨position, here⟩ := List.getElem?_of_mem (List.mem_reverse.mpr mined)
  obtain ⟨place, there⟩ := List.getElem?_of_mem (List.mem_reverse.mpr alsoMined)
  obtain ⟨_, was, nonce⟩ := minted.ordered position first here
  obtain rfl := Option.some.inj (signed.symm.trans was)
  obtain ⟨_, alsoWas, alsoNonce⟩ := minted.ordered place second there
  obtain rfl := Option.some.inj (alsoSigned.symm.trans alsoWas)
  have positions : position = place := by omega
  subst positions
  exact Option.some.inj (here.symm.trans there)

omit [DecidableEq κ] in
/-- Nothing is mined twice. A second time its nonce would be below the count. -/
theorem Minted.once (minted : Minted config requests s) : s.mined.Nodup := by
  rw [← List.nodup_reverse, List.nodup_iff_getElem?_ne_getElem?]
  intro position place before inside equal
  have there := List.getElem?_eq_getElem inside
  obtain ⟨tx, signed, nonce⟩ := minted.ordered position _ (equal.trans there)
  obtain ⟨other, alsoSigned, alsoNonce⟩ := minted.ordered place _ there
  obtain rfl := Option.some.inj (signed.symm.trans alsoSigned)
  omega

/-- What becomes of the calls in whatever order their steps are taken. The transactions that are
mined have the next nonces of the account, in their order, and each is made of the arguments
of its call; none is mined twice, and of the calls that signed one nonce at most one is
mined. A call that returns a hash is mined, and one whose transaction is out is mined, waits
to be, or shares its nonce with another, as does every call that the node turned away. -/
theorem mints_delivered (minedBefore : Nat)
    (ran : run (step config requests) (State.initial κ minedBefore) events = some s) :
    (∀ position call, s.mined.reverse[position]? = some call → ∃ gasPrice,
      s.signed call = some (transaction config (requests call) (minedBefore + position) gasPrice)) ∧
    s.mined.Nodup ∧
    (∀ first ∈ s.mined, ∀ second ∈ s.mined, ∀ tx other, s.signed first = some tx →
      s.signed second = some other → tx.nonce = other.nonce → first = second) ∧
    (∀ call tx, s.stage call = .returned tx → call ∈ s.mined) ∧
    (∀ call tx, s.stage call = .sent tx → call ∈ s.mined ∨ call ∈ s.pool ∨ Clash s call) ∧
    ∀ call ∈ s.refused, Clash s call := by
  obtain ⟨minted, start⟩ := minted minedBefore ran
  have delivery := delivery minedBefore ran
  refine ⟨?_, minted.once, ?_, minted.returned, ?_, ?_⟩
  · intro position call mined
    obtain ⟨tx, signed, nonce⟩ := minted.ordered position call mined
    obtain ⟨gasPrice, made⟩ := minted.made call tx signed
    rw [nonce, start] at made
    exact ⟨gasPrice, made ▸ signed⟩
  · intro first mined second alsoMined tx other signed alsoSigned same
    exact minted.only mined alsoMined signed alsoSigned same
  · intro call tx sent
    refine (delivery.delivered call tx sent).imp_right (Or.imp_right fun replaced => ?_)
    exact delivery.clash call (.inr replaced)
  · intro call refused
    exact delivery.clash call (.inl refused)

/-- Both calls sign the nonce 7. The first is mined, and the second is turned away. -/
theorem mints_delivered_racing : ∃ s,
    run (step sampleConfig sampleRequests) (State.initial (Fin 2) 7) racing = some s ∧
      (∃ gasPrice, s.signed 0 = some (transaction sampleConfig (sampleRequests 0) 7 gasPrice)) ∧
      Clash s 1 := by
  obtain ⟨s, ran⟩ : ∃ s,
    run (step sampleConfig sampleRequests) (State.initial (Fin 2) 7) racing = some s := ⟨_, rfl⟩
  obtain ⟨ordered, _, _, _, _, turnedAway⟩ := mints_delivered 7 ran
  have ends : (run (step sampleConfig sampleRequests) (State.initial (Fin 2) 7) racing).map
      (fun s => (s.mined, s.refused)) = some ([0], [1]) := rfl
  rw [ran] at ends
  obtain ⟨mined, refused⟩ := Prod.mk.inj (Option.some.inj ends)
  exact ⟨s, ran, ordered 0 0 (by rw [mined]; rfl), turnedAway 1 (by rw [refused]; decide)⟩

end Calls

end BlockchainService

end OpenBeach
