import Mathlib.Data.List.Basic
import OpenBeach.Library.NestedCalls

/-!
# Frames of nested calls

The history of successful events tells which calls are in progress and which ran to
their end: an interrupted action opens a frame, and a remainder closes the innermost
one. On every trace the open frames are the interrupted actions themselves, each with
the continuation it left.

What can be told of a call can be booked along: every event opens, closes or completes
at most one call that anything is told of.
-/

namespace NestedCalls

universe u v x y
variable {σ : Type u} {ε : Type v} {κ : Type x} {ρ : Type y}

section Frames

variable (system : Semantics σ ε κ ρ)

/-- The continuation that an event left behind when it was interrupted. A history can be asked for
it, since every event has the state it started from. -/
def interrupted (receipt : Receipt σ ε κ) : Option κ :=
  match receipt.event with
  | .executed action =>
    match system.execute action receipt.before with
    | .ok (_, continuation) => continuation
    | .error _ => none
  | .resumed _ => none

/-- The calls in progress, innermost first. An interrupted action opens one, and a resumed event
closes the innermost. -/
def openCalls : List (Receipt σ ε κ) → List (Receipt σ ε κ)
  | [] => []
  | receipt :: older =>
    match receipt.event with
    | .executed _ =>
      if (interrupted system receipt).isSome = true then receipt :: openCalls older
      else openCalls older
    | .resumed _ => (openCalls older).tail

/-- The calls that ran to their end, the latest end first. An action that is not interrupted is
among them at once. -/
def completedCalls : List (Receipt σ ε κ) → List (Receipt σ ε κ)
  | [] => []
  | receipt :: older =>
    match receipt.event with
    | .executed _ =>
      if (interrupted system receipt).isSome = true then completedCalls older
      else receipt :: completedCalls older
    | .resumed _ => (openCalls system older).head?.toList ++ completedCalls older

/-- The continuation belongs to the call. Executing the call again in the state it started from
returns the continuation. -/
def Suspends (continuation : κ) (call : Receipt σ ε κ) : Prop :=
  interrupted system call = some continuation

end Frames

section Bookings

variable {α : Type*}

/-- A call of which something is told begins, finishes, or runs to its end at once. The first two
belong together, and calls within calls come between them. -/
inductive CallEvent (α : Type*) where
  | begun : α → CallEvent α
  | finished : α → CallEvent α
  | whole : α → CallEvent α
deriving DecidableEq

/-- The phase of a call that an event is. What is told of a call is also told of the
continuation it left. -/
def callEvent (system : Semantics σ ε κ ρ) (told : Receipt σ ε κ → Option α)
    (left : κ → Option α) (receipt : Receipt σ ε κ) : Option (CallEvent α) :=
  match receipt.event with
  | .executed _ =>
    (told receipt).map fun a =>
      if (interrupted system receipt).isSome = true then .begun a else .whole a
  | .resumed continuation => (left continuation).map .finished

/-- What an event does to what is told of the open and of the completed calls. What begins is told
of as open, and what finishes as completed. -/
inductive Booked (opened completed : List α) : Option (CallEvent α) → List α → List α → Prop where
  | quiet : Booked opened completed none opened completed
  | begun (a : α) : Booked opened completed (some (.begun a)) (a :: opened) completed
  | finished (a : α) (outer : List α) (innermost : opened = a :: outer) :
      Booked opened completed (some (.finished a)) outer (a :: completed)
  | whole (a : α) : Booked opened completed (some (.whole a)) opened (a :: completed)

end Bookings

section Laws

variable {system : Semantics σ ε κ ρ} {start : σ}

/-- An event that succeeds leaves the continuation it returns. Execution is a function, so the
history says it exactly. -/
theorem interrupted_eq {action : ε} {before after : σ} {continuation : Option κ}
    (ran : system.execute action before = .ok (after, continuation)) :
    interrupted system ⟨before, .executed action⟩ = continuation := by
  simp only [interrupted, ran]

/-- An interrupted action opens a frame. Completed calls stay as they are. -/
theorem calls_suspended {action : ε} {before after : σ} {continuation : κ}
    (ran : system.execute action before = .ok (after, some continuation))
    (history : List (Receipt σ ε κ)) :
    openCalls system (⟨before, .executed action⟩ :: history) =
        ⟨before, .executed action⟩ :: openCalls system history ∧
      completedCalls system (⟨before, .executed action⟩ :: history) =
        completedCalls system history := by
  simp [openCalls, completedCalls, interrupted_eq ran]

/-- Any other action is a completed call. The frames that are open stay open. -/
theorem calls_ended {action : ε} {before after : σ}
    (ran : system.execute action before = .ok (after, none)) (history : List (Receipt σ ε κ)) :
    openCalls system (⟨before, .executed action⟩ :: history) = openCalls system history ∧
      completedCalls system (⟨before, .executed action⟩ :: history) =
        ⟨before, .executed action⟩ :: completedCalls system history := by
  simp [openCalls, completedCalls, interrupted_eq ran]

/-- A call that ran to its end did so for good. Later events only put calls in front of it. -/
theorem completedCalls_suffix (newer history : List (Receipt σ ε κ)) :
    completedCalls system history <:+ completedCalls system (newer ++ history) := by
  induction newer with
  | nil => exact List.suffix_rfl
  | cons receipt rest inductionHypothesis =>
    rw [List.cons_append, completedCalls]
    cases receipt.event with
    | executed action =>
      dsimp only
      split
      · exact inductionHypothesis
      · exact inductionHypothesis.trans (List.suffix_cons _ _)
    | resumed continuation => exact inductionHypothesis.trans (List.suffix_append _ _)

/-- Calls in progress are events of the history. A call enters by its own event. -/
theorem openCalls_subset (history : List (Receipt σ ε κ)) : openCalls system history ⊆ history := by
  induction history with
  | nil => exact List.Subset.refl _
  | cons receipt older inductionHypothesis =>
    rw [openCalls]
    cases receipt.event with
    | executed action =>
      dsimp only
      split
      · exact List.cons_subset_cons _ inductionHypothesis
      · exact List.subset_cons_of_subset _ inductionHypothesis
    | resumed continuation =>
      exact List.subset_cons_of_subset _
        fun call member => inductionHypothesis (List.mem_of_mem_tail member)

/-- So are completed calls. A call enters by its own event, and moves here when it ends. -/
theorem completedCalls_subset (history : List (Receipt σ ε κ)) :
    completedCalls system history ⊆ history := by
  induction history with
  | nil => exact List.Subset.refl _
  | cons receipt older inductionHypothesis =>
    rw [completedCalls]
    cases receipt.event with
    | executed action =>
      dsimp only
      split
      · exact List.subset_cons_of_subset _ inductionHypothesis
      · exact List.cons_subset_cons _ inductionHypothesis
    | resumed continuation =>
      have innermost : (openCalls system older).head?.toList ⊆ older := by
        intro call member
        exact openCalls_subset older (List.mem_of_mem_head? (Option.mem_toList.mp member))
      exact List.subset_cons_of_subset _ (List.append_subset.mpr ⟨innermost, inductionHypothesis⟩)

/-- The open frames of a trace are its interrupted actions. They are in the same order, the
innermost first. -/
theorem Trace.frames {snapshot : Snapshot σ ε κ} (trace : Trace system start snapshot) :
    List.Forall₂ (Suspends system) snapshot.pending (openCalls system snapshot.history) := by
  induction trace with
  | start => exact .nil
  | @advance before after trace advanced inductionHypothesis =>
    cases advanced with
    | executed _ action state continuation available ran =>
      cases continuation with
      | none =>
        simp only [(calls_ended ran before.history).1]
        exact inductionHypothesis
      | some continuation =>
        simp only [(calls_suspended ran before.history).1]
        exact .cons (interrupted_eq ran) inductionHypothesis
    | resumed before state continuation pending history ran =>
      simp only [openCalls]
      cases calls : openCalls system history with
      | nil =>
        rw [calls] at inductionHypothesis
        cases inductionHypothesis
      | cons call outer =>
        rw [calls] at inductionHypothesis
        cases inductionHypothesis with
        | cons _ others => exact others

section Told

variable {α : Type*} {told : Receipt σ ε κ → Option α} {left : κ → Option α}

/-- What can be told both of a call and of the continuation it left is told alike of the
open frames and of the interrupted actions. -/
theorem Trace.frames_filterMap {snapshot : Snapshot σ ε κ} (trace : Trace system start snapshot)
    (agree : ∀ continuation call, Suspends system continuation call →
      told call = left continuation) :
    (openCalls system snapshot.history).filterMap told = snapshot.pending.filterMap left := by
  have frames := trace.frames
  generalize openCalls system snapshot.history = calls at frames ⊢
  generalize snapshot.pending = pending at frames ⊢
  induction frames with
  | nil => rfl
  | cons suspends _ inductionHypothesis =>
    rw [List.filterMap_cons, List.filterMap_cons, agree _ _ suspends, inductionHypothesis]

/-- Every successful event is booked. What is told of an open call is read off its continuation,
too. -/
theorem Trace.booked {before next : Snapshot σ ε κ} (trace : Trace system start before)
    (advanced : Advance system before next)
    (agree : ∀ continuation call, Suspends system continuation call →
      told call = left continuation) :
    ∃ event, next.history = ⟨before.state, event⟩ :: before.history ∧
      Effective system event before.state next.state ∧
      Booked ((openCalls system before.history).filterMap told)
        ((completedCalls system before.history).filterMap told)
        (callEvent system told left ⟨before.state, event⟩)
        ((openCalls system next.history).filterMap told)
        ((completedCalls system next.history).filterMap told) := by
  cases advanced with
  | executed _ action state continuation available ran =>
    refine ⟨.executed action, rfl, ⟨continuation, ran⟩, ?_⟩
    simp only [callEvent, interrupted_eq ran]
    cases continuation with
    | none =>
      obtain ⟨opened, ended⟩ := calls_ended ran before.history
      rw [opened, ended]
      cases seen : told ⟨before.state, .executed action⟩ with
      | none =>
        rw [List.filterMap_cons_none seen]
        exact .quiet
      | some a =>
        rw [List.filterMap_cons_some seen]
        exact .whole a
    | some continuation =>
      obtain ⟨opened, ended⟩ := calls_suspended ran before.history
      rw [opened, ended]
      cases seen : told ⟨before.state, .executed action⟩ with
      | none =>
        rw [List.filterMap_cons_none seen]
        exact .quiet
      | some a =>
        rw [List.filterMap_cons_some seen]
        exact .begun a
  | resumed state result continuation pending history ran =>
    refine ⟨.resumed continuation, rfl, ran, ?_⟩
    have frames := trace.frames
    simp only [callEvent, openCalls, completedCalls]
    cases calls : openCalls system history with
    | nil =>
      rw [calls] at frames
      cases frames
    | cons call outer =>
      rw [calls] at frames
      obtain ⟨suspends, _⟩ := List.forall₂_cons.mp frames
      have same := agree continuation call suspends
      simp only [List.tail_cons, List.head?_cons, Option.toList_some, List.singleton_append]
      cases seen : left continuation with
      | none =>
        rw [seen] at same
        rw [List.filterMap_cons_none same, List.filterMap_cons_none same]
        exact .quiet
      | some a =>
        rw [seen] at same
        rw [List.filterMap_cons_some same, List.filterMap_cons_some same]
        exact .finished a _ rfl

end Told

end Laws

/-- Bookings lose no call. What was open is open or completed afterwards. -/
theorem Booked.kept {α : Type*} {opened completed nowOpened nowCompleted : List α}
    {event : Option (CallEvent α)} (booked : Booked opened completed event nowOpened nowCompleted) :
    opened ++ completed ⊆ nowOpened ++ nowCompleted := by
  cases booked with
  | quiet => exact List.Subset.refl _
  | begun => exact List.subset_cons_self _ _
  | finished a outer innermost =>
    subst innermost
    exact List.perm_middle.symm.subset
  | whole => exact fun _ member => List.perm_middle.symm.subset (List.mem_cons_of_mem _ member)

end NestedCalls
