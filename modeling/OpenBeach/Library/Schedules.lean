import Mathlib.Data.List.Induction

/-!
# Schedules

A schedule is a sequence of events, first to last. A system runs it if every event is
possible in the state it meets. What holds before any event and is kept by every possible
one holds after every schedule that runs. A system that can follow each step of another can
follow its runs.
-/

namespace Schedules

universe u v w x
variable {σ : Type u} {ε : Type v}

/-- The state after a schedule, if it runs. -/
def run (step : σ → ε → Option σ) (start : σ) (events : List ε) : Option σ :=
  events.foldlM step start

/-- One event comes before another. -/
def Precedes (events : List ε) (first second : ε) : Prop :=
  ∃ before after, events = before ++ second :: after ∧ first ∈ before

variable {step : σ → ε → Option σ} {start state : σ} {events : List ε}

/-- A run that starts with a possible event goes on from where that event leads. -/
theorem run_cons {event : ε} {next : σ} (stepped : step start event = some next) :
    run step start (event :: events) = run step next events := by
  simp [run, stepped]

/-- A single event is a run of one step. -/
theorem run_singleton {event : ε} : run step start [event] = step start event := by
  simp [run]

/-- A longer run is a run with one event more. Inductions over runs take off the last event, since
that is where the latest state is. -/
theorem run_append_singleton {event : ε} {after : σ} :
    run step start (events ++ [event]) = some after ↔
      ∃ before, run step start events = some before ∧ step before event = some after := by
  simp [run, List.foldlM_append, Option.bind_eq_some_iff]

/-- Two runs can be put one behind the other, and every run can be cut anywhere. -/
theorem run_append {later : List ε} {after : σ} :
    run step start (events ++ later) = some after ↔
      ∃ between, run step start events = some between ∧ run step between later = some after := by
  simp [run, List.foldlM_append, Option.bind_eq_some_iff]

/-- The induction over the events of a schedule. -/
theorem run_induction {P : List ε → σ → Prop} (base : P [] start)
    (advance : ∀ events before event after, P events before → step before event = some after →
      P (events ++ [event]) after)
    (ran : run step start events = some state) : P events state := by
  induction events using List.reverseRecOn generalizing state with
  | nil =>
    cases ran
    exact base
  | append_singleton events event inductionHypothesis =>
    obtain ⟨before, ranBefore, stepped⟩ := run_append_singleton.mp ran
    exact advance events before event state (inductionHypothesis ranBefore) stepped

/-- Forward simulation. If the system can follow every event of another, it can follow its
schedules. -/
theorem simulates {γ : Type w} {δ : Type x} {other : γ → δ → Option γ} {Related : γ → σ → Prop}
    {Allowed : δ → Prop}
    (follows : ∀ before event after state, Allowed event → Related before state →
      other before event = some after →
        ∃ events next, run step state events = some next ∧ Related after next)
    {first last : γ} {others : List δ} (related : Related first start)
    (allowed : ∀ event ∈ others, Allowed event) (ran : run other first others = some last) :
    ∃ events state, run step start events = some state ∧ Related last state := by
  refine run_induction (P := fun others last => (∀ event ∈ others, Allowed event) →
    ∃ events state, run step start events = some state ∧ Related last state) ?_ ?_ ran allowed
  · exact fun _ => ⟨[], start, rfl, related⟩
  · intro others before event after inductionHypothesis stepped allowed
    obtain ⟨events, state, ranBefore, known⟩ :=
      inductionHypothesis fun earlier member => allowed earlier (List.mem_append_left _ member)
    have last := allowed event (List.mem_append_right _ (List.mem_singleton_self _))
    obtain ⟨later, next, ranAfter, left⟩ := follows before event after state last known stepped
    exact ⟨events ++ later, next, run_append.mpr ⟨state, ranBefore, ranAfter⟩, left⟩

/-- Nothing happened before anything else if nothing happened at all. -/
theorem not_precedes_nil {first second : ε} : ¬ Precedes [] first second := by
  rintro ⟨before, after, split, _⟩
  simp at split

/-- The last event comes after all the others. -/
theorem precedes_append_singleton {event first second : ε} :
    Precedes (events ++ [event]) first second ↔
      Precedes events first second ∨ (second = event ∧ first ∈ events) := by
  constructor
  · rintro ⟨before, after, split, member⟩
    rcases List.eq_nil_or_concat after with rfl | ⟨rest, last, rfl⟩
    · obtain ⟨rfl, same⟩ := List.append_inj' split rfl
      exact .inr ⟨(List.cons.inj same).1.symm, member⟩
    · rw [List.concat_eq_append, ← List.cons_append, ← List.append_assoc] at split
      exact .inl ⟨before, rest, (List.append_inj' split rfl).1, member⟩
  · rintro (⟨before, after, rfl, member⟩ | ⟨rfl, member⟩)
    · exact ⟨before, after ++ [event], by rw [List.append_assoc, List.cons_append], member⟩
    · exact ⟨events, [], rfl, member⟩

/-- Both events are events of the schedule. -/
theorem Precedes.mem_first {first second : ε} (precedes : Precedes events first second) :
    first ∈ events := by
  obtain ⟨before, after, rfl, member⟩ := precedes
  exact List.mem_append_left _ member

/-- What comes after something else did happen. -/
theorem Precedes.mem {first second : ε} (precedes : Precedes events first second) :
    second ∈ events := by
  obtain ⟨before, after, rfl, _⟩ := precedes
  exact List.mem_append_right _ List.mem_cons_self

end Schedules
