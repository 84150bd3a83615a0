import Mathlib.Data.List.Infix
import Mathlib.Logic.Relation

/-!
# Nested calls with rollback

A system executes actions on a shared state. An action either completes or stops
at an external call, leaving a continuation; control then belongs to an unknown
callee, which may execute further actions before it returns. A callee that fails
undoes everything since the interrupted action began, including that action.

A configuration keeps the current snapshot and one saved snapshot for each
interrupted action. Rollback makes runs branch backwards, so invariants are not
proved over runs directly: every snapshot of a run, current or saved, is also
reached by a trace of successful events alone, in the order of its own history.
-/

namespace NestedCalls

universe u v x y
variable {σ : Type u} {ε : Type v} {κ : Type x} {ρ : Type y}

/-- What a system does on its own. `outermost` marks the actions that are only
available while no action is interrupted. -/
structure Semantics (σ : Type u) (ε : Type v) (κ : Type x) (ρ : Type y) where
  execute : ε → σ → Except ρ (σ × Option κ)
  resume : κ → σ → Except ρ σ
  outermost : ε → Bool

/-- A successful event: an action that ran to its end or to its external call, or
the remainder of an interrupted action. -/
inductive Event (ε : Type v) (κ : Type x) where
  | executed : ε → Event ε κ
  | resumed : κ → Event ε κ

/-- An event together with the state it started from. So the past can be asked what it was like. -/
structure Receipt (σ : Type u) (ε : Type v) (κ : Type x) where
  before : σ
  event : Event ε κ

/-- A state, the interrupted actions innermost first, and the successful events
behind them, most recent first. -/
structure Snapshot (σ : Type u) (ε : Type v) (κ : Type x) where
  state : σ
  pending : List κ
  history : List (Receipt σ ε κ)

/-- The states behind a snapshot, its own first. The last one is the state the run began with. -/
def Snapshot.states (snapshot : Snapshot σ ε κ) : List σ :=
  snapshot.state :: snapshot.history.map Receipt.before

/-- The current snapshot, and the snapshot each interrupted action would restore. There is one
saved snapshot for every interrupted action. -/
structure Config (σ : Type u) (ε : Type v) (κ : Type x) where
  current : Snapshot σ ε κ
  saved : List (Snapshot σ ε κ)

/-- A party acts, or the innermost callee returns, or it fails. Which of these is possible depends
on the configuration, and others do nothing. -/
inductive Move (ε : Type v) where
  | act : ε → Move ε
  | finish : Move ε
  | abort : Move ε

/-- Undo the innermost interrupted action. What it did is forgotten, and so is its event. -/
def Config.rollback (config : Config σ ε κ) : Config σ ε κ :=
  match config.saved with
  | [] => config
  | snapshot :: rest => ⟨snapshot, rest⟩

/-- A refused action changes nothing. An interrupted one saves the snapshot it
started from. A remainder that fails undoes the action it belongs to. -/
def Config.step (system : Semantics σ ε κ ρ) (config : Config σ ε κ) :
    Move ε → Config σ ε κ
  | .act action =>
    if system.outermost action && !config.current.pending.isEmpty then config else
      let history := ⟨config.current.state, .executed action⟩ :: config.current.history
      match system.execute action config.current.state with
      | .error _ => config
      | .ok (state, none) => ⟨⟨state, config.current.pending, history⟩, config.saved⟩
      | .ok (state, some continuation) =>
        ⟨⟨state, continuation :: config.current.pending, history⟩, config.current :: config.saved⟩
  | .finish =>
    match config.current.pending with
    | [] => config
    | continuation :: pending =>
      match system.resume continuation config.current.state with
      | .error _ => config.rollback
      | .ok state =>
        ⟨⟨state, pending, ⟨config.current.state, .resumed continuation⟩ :: config.current.history⟩,
          config.saved.tail⟩
  | .abort => config.rollback

/-- Moves are taken from left to right. A move that is not possible changes nothing. -/
def Config.run (system : Semantics σ ε κ ρ) (config : Config σ ε κ)
    (moves : List (Move ε)) : Config σ ε κ :=
  moves.foldl (Config.step system) config

/-- Moves can be made one behind the other, so a run goes on from the configuration that an
earlier run reached. -/
theorem Config.run_append (system : Semantics σ ε κ ρ) (config : Config σ ε κ)
    (moves later : List (Move ε)) :
    config.run system (moves ++ later) = (config.run system moves).run system later :=
  List.foldl_append

/-- The configuration before any event. No action is interrupted, and nothing is saved. -/
def Config.initial (state : σ) : Config σ ε κ := ⟨⟨state, [], []⟩, []⟩

/-- The configurations that some moves lead to. The moves may be any, with failures and rollbacks
among them. -/
def Reachable (system : Semantics σ ε κ ρ) (start config : Config σ ε κ) : Prop :=
  ∃ moves, start.run system moves = config

/-- One successful event, on snapshots. Failures are not among them, for they leave no snapshot
behind. -/
inductive Advance (system : Semantics σ ε κ ρ) : Snapshot σ ε κ → Snapshot σ ε κ → Prop where
  | executed (snapshot : Snapshot σ ε κ) (action : ε) (state : σ) (continuation : Option κ)
      (available : system.outermost action = true → snapshot.pending = [])
      (ran : system.execute action snapshot.state = .ok (state, continuation)) :
      Advance system snapshot ⟨state, continuation.toList ++ snapshot.pending,
        ⟨snapshot.state, .executed action⟩ :: snapshot.history⟩
  | resumed (before state : σ) (continuation : κ) (pending : List κ)
      (history : List (Receipt σ ε κ)) (ran : system.resume continuation before = .ok state) :
      Advance system ⟨before, continuation :: pending, history⟩
        ⟨state, pending, ⟨before, .resumed continuation⟩ :: history⟩

/-- The event carries the state from `before` to `after`. Calls that fail have no effect in this
sense. -/
def Effective (system : Semantics σ ε κ ρ) (event : Event ε κ) (before after : σ) : Prop :=
  match event with
  | .executed action => ∃ continuation, system.execute action before = .ok (after, continuation)
  | .resumed continuation => system.resume continuation before = .ok after

/-- Successful events only, starting from a given state. Rolled back events are not among them. -/
inductive Trace (system : Semantics σ ε κ ρ) (start : σ) : Snapshot σ ε κ → Prop where
  | start : Trace system start ⟨start, [], []⟩
  | advance {before after : Snapshot σ ε κ} (trace : Trace system start before)
      (advanced : Advance system before after) : Trace system start after

section Laws

variable {system : Semantics σ ε κ ρ} {start : σ}

/-- A successful event is recorded with the state it started from. The history grows by exactly
that event. -/
theorem Advance.recorded {before after : Snapshot σ ε κ} (advanced : Advance system before after) :
    ∃ event, after.history = ⟨before.state, event⟩ :: before.history ∧
      Effective system event before.state after.state := by
  cases advanced with
  | executed _ action state continuation available ran =>
    exact ⟨.executed action, rfl, continuation, ran⟩
  | resumed state result continuation pending history ran =>
    exact ⟨.resumed continuation, rfl, ran⟩

/-- Rollback selects a snapshot that was saved. So what holds of all saved snapshots holds after
it. -/
theorem rollback_member (config : Config σ ε κ) (P : Snapshot σ ε κ → Prop)
    (current : P config.current) (saved : ∀ snapshot ∈ config.saved, P snapshot) :
    P config.rollback.current ∧ ∀ snapshot ∈ config.rollback.saved, P snapshot := by
  unfold Config.rollback
  split
  · exact ⟨current, saved⟩
  · next snapshot rest same =>
    rw [same] at saved
    exact ⟨saved snapshot List.mem_cons_self,
      fun other member => saved other (List.mem_cons_of_mem snapshot member)⟩

/-- A property of snapshots that every successful event keeps is kept, for the
current and all the saved snapshots, by every move. -/
theorem step_preserves (P : Snapshot σ ε κ → Prop)
    (keeps : ∀ before after, Advance system before after → P before → P after)
    (config : Config σ ε κ) (move : Move ε)
    (current : P config.current) (saved : ∀ snapshot ∈ config.saved, P snapshot) :
    P (config.step system move).current ∧
      ∀ snapshot ∈ (config.step system move).saved, P snapshot := by
  cases move with
  | act action =>
    simp only [Config.step]
    split
    · exact ⟨current, saved⟩
    · next available =>
      have allowed : system.outermost action = true → config.current.pending = [] := by
        simpa using available
      split
      · exact ⟨current, saved⟩
      · next state ran =>
        exact ⟨keeps _ _ (.executed config.current action state none allowed ran) current, saved⟩
      · next state continuation ran =>
        refine ⟨keeps _ _ (.executed config.current action state (some continuation) allowed ran)
          current, ?_⟩
        intro snapshot member
        rcases List.mem_cons.mp member with rfl | member
        · exact current
        · exact saved snapshot member
  | finish =>
    simp only [Config.step]
    split
    · exact ⟨current, saved⟩
    · next continuation pending interrupted =>
      split
      · exact rollback_member config P current saved
      · next state ran =>
        have advanced : Advance system config.current
            ⟨state, pending, ⟨config.current.state, .resumed continuation⟩ ::
              config.current.history⟩ := by
          have same : config.current =
              ⟨config.current.state, continuation :: pending, config.current.history⟩ := by
            rw [← interrupted]
          rw [same]
          exact .resumed _ _ _ _ _ ran
        exact ⟨keeps _ _ advanced current,
          fun snapshot member => saved snapshot (List.mem_of_mem_tail member)⟩
  | abort => exact rollback_member config P current saved

/-- The same for any number of moves. The induction is on the moves. -/
theorem run_preserves (P : Snapshot σ ε κ → Prop)
    (keeps : ∀ before after, Advance system before after → P before → P after)
    (config : Config σ ε κ) (moves : List (Move ε))
    (current : P config.current) (saved : ∀ snapshot ∈ config.saved, P snapshot) :
    P (config.run system moves).current ∧
      ∀ snapshot ∈ (config.run system moves).saved, P snapshot := by
  induction moves generalizing config with
  | nil => exact ⟨current, saved⟩
  | cons move rest inductionHypothesis =>
    obtain ⟨nextCurrent, nextSaved⟩ := step_preserves P keeps config move current saved
    exact inductionHypothesis (config.step system move) nextCurrent nextSaved

/-- Rollbacks can be erased: the current snapshot of a run, and every snapshot it
may still restore, is reached by the successful events of its own history. -/
theorem reachable_trace {config : Config σ ε κ}
    (reachable : Reachable system (.initial start) config) :
    Trace system start config.current ∧
      ∀ snapshot ∈ config.saved, Trace system start snapshot := by
  obtain ⟨moves, rfl⟩ := reachable
  exact run_preserves (Trace system start) (fun _ _ advanced trace => .advance trace advanced)
    (.initial start) moves .start (by simp [Config.initial])

/-- The invariant rule: what the start satisfies and every effective event keeps
holds of the state of every trace. -/
theorem Trace.invariant {snapshot : Snapshot σ ε κ} (trace : Trace system start snapshot)
    (P : σ → Prop) (base : P start)
    (keeps : ∀ event before after, Effective system event before after → P before → P after) :
    P snapshot.state := by
  induction trace with
  | start => exact base
  | advance trace advanced inductionHypothesis =>
    obtain ⟨event, _, effective⟩ := advanced.recorded
    exact keeps event _ _ effective inductionHypothesis

/-- The invariant rule for a state together with its history. It has to hold at the start and to
be kept by every event. -/
theorem Trace.history_invariant {snapshot : Snapshot σ ε κ} (trace : Trace system start snapshot)
    (P : List (Receipt σ ε κ) → σ → Prop) (base : P [] start)
    (keeps : ∀ event history before after, Effective system event before after →
      P history before → P (⟨before, event⟩ :: history) after) :
    P snapshot.history snapshot.state := by
  induction trace with
  | start => exact base
  | advance trace advanced inductionHypothesis =>
    obtain ⟨event, recorded, effective⟩ := advanced.recorded
    rw [recorded]
    exact keeps event _ _ _ effective inductionHypothesis

/-- The invariant rule from a given event on: what holds once the event happened and
is kept by every later one holds at the end, of the receipts since. -/
theorem Trace.since {snapshot : Snapshot σ ε κ} (trace : Trace system start snapshot)
    (newer older : List (Receipt σ ε κ)) (receipt : Receipt σ ε κ)
    (recorded : snapshot.history = newer ++ receipt :: older) (I : σ → Prop) (base : I start)
    (maintained : ∀ event before after, Effective system event before after → I before → I after)
    (P : List (Receipt σ ε κ) → σ → Prop)
    (started : ∀ after, Effective system receipt.event receipt.before after →
      I receipt.before → P [] after)
    (keeps : ∀ event newer before after, Effective system event before after → I before →
      P newer before → P (⟨before, event⟩ :: newer) after) :
    P newer snapshot.state := by
  induction trace generalizing newer with
  | start => simp at recorded
  | @advance before after trace advanced inductionHypothesis =>
    obtain ⟨event, entry, effective⟩ := advanced.recorded
    rw [entry] at recorded
    have holds : I before.state := trace.invariant I base maintained
    cases newer with
    | nil =>
      obtain ⟨rfl, rfl⟩ := List.cons.inj recorded
      exact started after.state effective holds
    | cons first rest =>
      obtain ⟨rfl, rest_recorded⟩ := List.cons.inj recorded
      exact keeps event rest before.state after.state effective holds
        (inductionHypothesis rest rest_recorded)

/-- A successful event from a given snapshot has one result for each event. Executing and resuming
are functions. -/
theorem Advance.deterministic {before after other : Snapshot σ ε κ}
    (advanced : Advance system before after) (again : Advance system before other)
    (same : after.history = other.history) : after = other := by
  cases advanced with
  | executed _ action state continuation available ran =>
    cases again with
    | executed _ action' state' continuation' available' ran' =>
      obtain rfl : action = action' := by simpa using same
      obtain ⟨rfl, rfl⟩ : state = state' ∧ continuation = continuation' := by
        simpa using ran.symm.trans ran'
      rfl
    | resumed => simp at same
  | resumed state result continuation pending history ran =>
    cases again with
    | executed => simp at same
    | resumed state' result' continuation' pending' history' ran' =>
      obtain rfl : result = result' := by simpa using ran.symm.trans ran'
      rfl

/-- A trace is determined by its history. Events have one result each, so the induction is on the
history. -/
theorem Trace.determined {left right : Snapshot σ ε κ} (trace : Trace system start left)
    (other : Trace system start right) (same : left.history = right.history) : left = right := by
  induction trace generalizing right with
  | start =>
    cases other with
    | start => rfl
    | advance _ advanced =>
      obtain ⟨event, entry, _⟩ := advanced.recorded
      rw [entry] at same
      cases same
  | advance trace advanced inductionHypothesis =>
    obtain ⟨event, entry, _⟩ := advanced.recorded
    cases other with
    | start =>
      rw [entry] at same
      cases same
    | advance trace' advanced' =>
      obtain ⟨event', entry', _⟩ := advanced'.recorded
      have tails := same
      rw [entry, entry'] at tails
      obtain rfl := inductionHypothesis trace' (List.cons.inj tails).2
      exact advanced.deterministic advanced' same

/-- A trace whose history extends another's continues it by successful events. No event of the
earlier one was undone in between. -/
theorem Trace.continues {left right : Snapshot σ ε κ} (trace : Trace system start left)
    (other : Trace system start right) (extended : left.history <:+ right.history) :
    Relation.ReflTransGen (Advance system) left right := by
  induction other with
  | start =>
    have empty : left.history = [] := by simpa using extended
    rw [trace.determined .start empty]
  | @advance before after other advanced inductionHypothesis =>
    obtain ⟨event, entry, _⟩ := advanced.recorded
    rcases List.suffix_cons_iff.mp (entry ▸ extended) with same | shorter
    · rw [trace.determined (.advance other advanced) (same.trans entry.symm)]
    · exact (inductionHypothesis shorter).tail advanced

/-- A relation on states that is reflexive, transitive and contains every
effective event holds between a trace and each trace continuing it. The event is
judged at a state satisfying an invariant of the system. -/
theorem Trace.monotone {left right : Snapshot σ ε κ} (trace : Trace system start left)
    (other : Trace system start right) (extended : left.history <:+ right.history)
    (I : σ → Prop) (base : I start)
    (keeps : ∀ event before after, Effective system event before after → I before → I after)
    (R : σ → σ → Prop) (reflexive : ∀ state, R state state)
    (transitive : ∀ first second third, R first second → R second third → R first third)
    (contains : ∀ event before after, Effective system event before after →
      I before → R before after) :
    R left.state right.state := by
  have continued := trace.continues other extended
  suffices R left.state right.state ∧ I right.state from this.1
  clear other extended
  induction continued with
  | refl => exact ⟨reflexive left.state, trace.invariant I base keeps⟩
  | tail _ advanced inductionHypothesis =>
    obtain ⟨related, holds⟩ := inductionHypothesis
    obtain ⟨event, _, effective⟩ := advanced.recorded
    exact ⟨transitive _ _ _ related (contains event _ _ effective holds),
      keeps event _ _ effective holds⟩

/-- Every event of a trace happened where an earlier trace ended. The state in its receipt is the
state of that trace. -/
theorem Trace.before {snapshot : Snapshot σ ε κ} (trace : Trace system start snapshot)
    (newer older : List (Receipt σ ε κ)) (receipt : Receipt σ ε κ)
    (recorded : snapshot.history = newer ++ receipt :: older) :
    ∃ earlier, Trace system start earlier ∧ earlier.state = receipt.before ∧
      earlier.history = older ∧ ∃ after, Effective system receipt.event receipt.before after := by
  induction trace generalizing newer with
  | start => simp at recorded
  | @advance before after trace advanced inductionHypothesis =>
    obtain ⟨event, entry, effective⟩ := advanced.recorded
    rw [entry] at recorded
    cases newer with
    | nil =>
      obtain ⟨rfl, rfl⟩ := List.cons.inj recorded
      exact ⟨before, trace, rfl, rfl, after.state, effective⟩
    | cons first rest => exact inductionHypothesis rest (List.cons.inj recorded).2

/-- The invariant rule between two traces: what holds at the first and is kept by every
event since holds at the second, of the receipts since. -/
theorem Trace.extend {left right : Snapshot σ ε κ} (trace : Trace system start left)
    (other : Trace system start right) (newer : List (Receipt σ ε κ))
    (recorded : right.history = newer ++ left.history) (I : σ → Prop) (base : I start)
    (maintained : ∀ event before after, Effective system event before after → I before → I after)
    (P : List (Receipt σ ε κ) → σ → Prop) (started : I left.state → P [] left.state)
    (keeps : ∀ event newer before after, Effective system event before after → I before →
      P newer before → P (⟨before, event⟩ :: newer) after) :
    P newer right.state := by
  induction other generalizing newer with
  | start =>
    obtain ⟨rfl, empty⟩ := List.append_eq_nil_iff.mp recorded.symm
    have same := trace.determined .start empty
    subst same
    exact started base
  | @advance before after other advanced inductionHypothesis =>
    cases newer with
    | nil =>
      rw [← trace.determined (.advance other advanced) recorded.symm]
      exact started (trace.invariant I base maintained)
    | cons first rest =>
      obtain ⟨event, entry, effective⟩ := advanced.recorded
      rw [entry] at recorded
      obtain ⟨rfl, rest_recorded⟩ := List.cons.inj recorded
      exact keeps event rest before.state after.state effective
        (other.invariant I base maintained) (inductionHypothesis rest rest_recorded)

/-- The actions behind a snapshot. Resumed events belong to actions that were executed before. -/
def Snapshot.Executes (snapshot : Snapshot σ ε κ) (Allowed : ε → Prop) : Prop :=
  ∀ receipt ∈ snapshot.history, ∀ action, receipt.event = .executed action → Allowed action

/-- One more event keeps to the allowed actions if it executes an allowed one, or none. The
snapshot that follows may be in any state. -/
theorem Snapshot.Executes.cons {Allowed : ε → Prop} {snapshot : Snapshot σ ε κ}
    (executes : snapshot.Executes Allowed) {event : Event ε κ}
    (allowed : ∀ action, event = .executed action → Allowed action) (state : σ)
    (pending : List κ) :
    (⟨state, pending, ⟨snapshot.state, event⟩ :: snapshot.history⟩ :
      Snapshot σ ε κ).Executes Allowed := by
  intro receipt member action executed
  rcases List.mem_cons.mp member with rfl | before
  · exact allowed action executed
  · exact executes receipt before action executed

/-- What was executed is an action of the moves. Rollbacks take events away and add none. -/
theorem run_executes {Allowed : ε → Prop} (moves : List (Move ε)) (config : Config σ ε κ)
    (allowed : ∀ action, .act action ∈ moves → Allowed action)
    (current : config.current.Executes Allowed)
    (saved : ∀ snapshot ∈ config.saved, snapshot.Executes Allowed) :
    (config.run system moves).current.Executes Allowed := by
  induction moves generalizing config with
  | nil => exact current
  | cons move rest inductionHypothesis =>
    have later (action : ε) (member : .act action ∈ rest) :=
      allowed action (List.mem_cons_of_mem _ member)
    have undone := rollback_member config (Snapshot.Executes · Allowed) current saved
    have unfolded : config.run system (move :: rest) =
        (config.step system move).run system rest := rfl
    rw [unfolded]
    cases move with
    | act action =>
      have now : ∀ other, (.executed action : Event ε κ) = .executed other → Allowed other := by
        rintro other ⟨⟩
        exact allowed action List.mem_cons_self
      simp only [Config.step]
      split
      · exact inductionHypothesis config later current saved
      · split
        · exact inductionHypothesis config later current saved
        · exact inductionHypothesis _ later (current.cons now _ _) saved
        · refine inductionHypothesis _ later (current.cons now _ _) ?_
          intro snapshot member
          rcases List.mem_cons.mp member with rfl | member
          · exact current
          · exact saved snapshot member
    | finish =>
      simp only [Config.step]
      split
      · exact inductionHypothesis config later current saved
      · split
        · exact inductionHypothesis _ later undone.1 undone.2
        · refine inductionHypothesis _ later (current.cons ?_ _ _) ?_
          · intro action executed
            cases executed
          · exact fun snapshot member => saved snapshot (List.mem_of_mem_tail member)
    | abort => exact inductionHypothesis _ later undone.1 undone.2

/-- From a configuration with nothing interrupted, no move undoes the past: every
later history extends the present one. -/
theorem settled_extends (config : Config σ ε κ) (settled : config.saved = [])
    (moves : List (Move ε)) : config.current.history <:+ (config.run system moves).current.history := by
  have keeps : ∀ before after, Advance system before after →
      config.current.history <:+ before.history → config.current.history <:+ after.history := by
    intro before after advanced extended
    obtain ⟨event, entry, _⟩ := advanced.recorded
    rw [entry]
    exact extended.trans (List.suffix_cons _ _)
  exact (run_preserves (fun snapshot => config.current.history <:+ snapshot.history) keeps
    config moves (List.suffix_refl _) (by simp [settled])).1

end Laws

end NestedCalls
