import Mathlib.Data.List.Basic
import Mathlib.Data.List.Pairwise
import Mathlib.Logic.Function.Basic

/-!
# Handlers that share a store

Handlers take turns at a store. A turn changes the store and how far its own handler got.
Some handlers leave an entry in a log of the store when they end. Then the log is what the
handlers left, in the order in which they ended, and nothing else.
-/

namespace Handlers

universe u v w x y z
variable {σ : Type u} {κ : Type v} {τ : Type w} {ε : Type x} {ρ : Type y} {β : Type z}

/-- A store, and how far each handler got. All of them read and write the store, each at its own
turns. -/
structure Shared (σ : Type u) (κ : Type v) (τ : Type w) where
  store : σ
  stage : κ → τ

namespace Shared

variable [DecidableEq κ]

/-- A handler takes a turn. The others keep their stages. -/
def enter (s : Shared σ κ τ) (key : κ) (outcome : τ × σ) : Shared σ κ τ :=
  ⟨outcome.2, Function.update s.stage key outcome.1⟩

variable {s : Shared σ κ τ} {key other : κ} {outcome : τ × σ}

/-- After the turn of a handler, the shared state is what the turn left. The stages are not part
of it. -/
@[simp] theorem enter_store : (s.enter key outcome).store = outcome.2 := rfl

/-- The handler whose turn it was is at the stage that its turn led to. It is the first part of
the outcome. -/
@[simp] theorem enter_stage : (s.enter key outcome).stage key = outcome.1 :=
  Function.update_self _ _ _

/-- No other handler has moved. The turn reads and writes the stage of its own handler. -/
@[simp] theorem enter_stage_of_ne (different : other ≠ key) :
    (s.enter key outcome).stage other = s.stage other :=
  Function.update_of_ne different _ _

/-- Of two turns of one handler, the later one shows. What the first left in the shared state was
already read by the second. -/
@[simp] theorem enter_enter (first second : τ × σ) :
    (s.enter key first).enter key second = s.enter key second := by
  simp [enter]

/-- What is known of every handler stays known, if it is known of the one that took its turn, and
the others stand what the turn did to the store. -/
theorem enter_known {Known : κ → σ → τ → Prop} (known : ∀ key, Known key s.store (s.stage key))
    (own : Known key outcome.2 outcome.1)
    (stable : ∀ other stage, Known other s.store stage → Known other outcome.2 stage)
    (other : κ) : Known other (s.enter key outcome).store ((s.enter key outcome).stage other) := by
  by_cases same : other = key
  · subst same
    simpa using own
  · simpa [same] using stable other _ (known other)

end Shared

/-- A log of a store, which handler an event ends, which handlers are done, and the entry that
one of them left. -/
structure Journal (σ : Type u) (κ : Type v) (τ : Type w) (ε : Type x) (ρ : Type y) where
  log : σ → List ρ
  ends : ε → Option κ
  done : τ → Prop
  entry : τ → Option ρ

namespace Journal

/-- What the handlers that were ended by some events left, in their order. Events that end nobody
leave nothing. -/
def entries (journal : Journal σ κ τ ε ρ) (s : Shared σ κ τ) (events : List ε) : List ρ :=
  events.filterMap fun event => (journal.ends event).bind fun key => journal.entry (s.stage key)

/-- What an event does to the log. A handler that is done takes no more turns. So its entry stays
as it was left. -/
structure Effect (journal : Journal σ κ τ ε ρ) (s : Shared σ κ τ) (event : ε)
    (next : Shared σ κ τ) : Prop where
  log : journal.log next.store = journal.log s.store ++ journal.entries next [event]
  final : ∀ key, journal.done (s.stage key) → next.stage key = s.stage key
  done : ∀ key, journal.ends event = some key → journal.done (next.stage key)
  entry : ∀ key entry, journal.entry (next.stage key) = some entry →
    journal.entry (s.stage key) = some entry ∨ journal.ends event = some key

/-- What the log says after some events. Entries appear in the order of the events that ended
their handlers. -/
structure Kept (journal : Journal σ κ τ ε ρ) (start : σ) (events : List ε) (s : Shared σ κ τ) :
    Prop where
  log : journal.log s.store = journal.log start ++ journal.entries s events
  done : ∀ event ∈ events, ∀ key, journal.ends event = some key → journal.done (s.stage key)
  ended : ∀ key entry, journal.entry (s.stage key) = some entry →
    ∃ event ∈ events, journal.ends event = some key

variable {journal : Journal σ κ τ ε ρ} {start : σ} {events : List ε} {event : ε}
  {s next : Shared σ κ τ}

/-- One event is a list of entries of its own. There is one at most. -/
theorem entries_singleton : journal.entries s [event] =
    ((journal.ends event).bind fun key => journal.entry (s.stage key)).toList := by
  unfold entries
  cases told : (journal.ends event).bind fun key => journal.entry (s.stage key) <;> simp [told]

/-- The entries of a longer list of events are those of its two parts, in order. The stages that
they are read from are the same. -/
theorem entries_append (earlier later : List ε) :
    journal.entries s (earlier ++ later) = journal.entries s earlier ++ journal.entries s later :=
  List.filterMap_append

/-- A turn of a handler, which either ends it or leaves no entry. The log has to show the entry it
leaves. -/
theorem effect_enter [DecidableEq κ] {key : κ} {outcome : τ × σ}
    (undone : ¬ journal.done (s.stage key))
    (log : journal.log outcome.2 = journal.log s.store ++ (journal.entry outcome.1).toList)
    (ending : journal.ends event = some key ∧ journal.done outcome.1 ∨
      journal.ends event = none ∧ journal.entry outcome.1 = none) :
    journal.Effect s event (s.enter key outcome) where
  log := by
    rw [entries_singleton, Shared.enter_store, log]
    rcases ending with ⟨ends, _⟩ | ⟨ends, nothing⟩
    · simp [ends]
    · simp [ends, nothing]
  final other done := by
    by_cases same : other = key
    · subst same
      exact absurd done undone
    · exact Shared.enter_stage_of_ne same
  done other ends := by
    rcases ending with ⟨also, done⟩ | ⟨none, _⟩
    · obtain rfl := Option.some.inj (also.symm.trans ends)
      simpa using done
    · rw [none] at ends
      cases ends
  entry other entry left := by
    by_cases same : other = key
    · subst same
      rw [Shared.enter_stage] at left
      rcases ending with ⟨ends, _⟩ | ⟨_, nothing⟩
      · exact .inr ends
      · rw [nothing] at left
        cases left
    · rw [Shared.enter_stage_of_ne same] at left
      exact .inl left

/-- An event that is nobody's turn, and leaves the log. No stage changes. -/
theorem effect_outside {after : σ} (nobody : journal.ends event = none)
    (log : journal.log after = journal.log s.store) :
    journal.Effect s event ⟨after, s.stage⟩ where
  log := by simp [entries_singleton, nobody, log]
  final _ _ := rfl
  done key ends := by
    rw [nobody] at ends
    cases ends
  entry _ _ := .inl

/-- Before any event nobody has left anything. The log is what it is at the start. -/
theorem kept_initial {stage : κ → τ} (idle : ∀ key, journal.entry (stage key) = none) :
    journal.Kept start [] ⟨start, stage⟩ where
  log := (List.append_nil _).symm
  done _ member := by cases member
  ended key entry left := by
    rw [idle] at left
    cases left

/-- What was left before is still there. The handlers of those events were done, and have not
moved. -/
theorem Kept.entries (kept : journal.Kept start events s) (effect : journal.Effect s event next) :
    journal.entries next events = journal.entries s events := by
  apply List.filterMap_congr
  intro earlier member
  cases ends : journal.ends earlier with
  | none => rfl
  | some key =>
    rw [Option.bind_some, Option.bind_some, effect.final key (kept.done earlier member key ends)]

/-- The step lemma of a log. The new entry stands behind all others, in the log and among the
entries. -/
theorem Kept.step (kept : journal.Kept start events s) (effect : journal.Effect s event next) :
    journal.Kept start (events ++ [event]) next where
  log := by rw [effect.log, kept.log, entries_append, kept.entries effect, List.append_assoc]
  done earlier member key ends := by
    rcases List.mem_append.mp member with before | now
    · have done := kept.done earlier before key ends
      rwa [effect.final key done]
    · exact effect.done key (List.mem_singleton.mp now ▸ ends)
  ended key entry left := by
    rcases effect.entry key entry left with before | ends
    · obtain ⟨earlier, member, ends⟩ := kept.ended key entry before
      exact ⟨earlier, List.mem_append_left _ member, ends⟩
    · exact ⟨event, List.mem_append_right _ (List.mem_singleton_self _), ends⟩

/-- The entries are those of the handlers. A handler that left one was ended by one of the events. -/
theorem Kept.mem_entries (kept : journal.Kept start events s) {entry : ρ} :
    entry ∈ journal.entries s events ↔ ∃ key, journal.entry (s.stage key) = some entry := by
  constructor
  · intro member
    obtain ⟨event, _, told⟩ := List.mem_filterMap.mp member
    obtain ⟨key, _, left⟩ := Option.bind_eq_some_iff.mp told
    exact ⟨key, left⟩
  · rintro ⟨key, left⟩
    obtain ⟨event, member, ends⟩ := kept.ended key entry left
    exact List.mem_filterMap.mpr ⟨event, member, by rw [ends, Option.bind_some, left]⟩

/-- The log has what was there, and the entries of the handlers. Nothing else writes to it. -/
theorem Kept.mem_log (kept : journal.Kept start events s) {entry : ρ} :
    entry ∈ journal.log s.store ↔
      entry ∈ journal.log start ∨ ∃ key, journal.entry (s.stage key) = some entry := by
  rw [kept.log, List.mem_append, kept.mem_entries]

/-- If no two entries share a value, no two handlers do. Each handler leaves its entry once. -/
theorem Kept.apart (kept : journal.Kept start events s) {value : ρ → β}
    (distinct : ((journal.entries s events).map value).Nodup) {first second : κ}
    {entry another : ρ} (different : first ≠ second)
    (left : journal.entry (s.stage first) = some entry)
    (alsoLeft : journal.entry (s.stage second) = some another) : value entry ≠ value another := by
  obtain ⟨event, member, ends⟩ := kept.ended first entry left
  obtain ⟨later, alsoMember, alsoEnds⟩ := kept.ended second another alsoLeft
  have apart : event ≠ later := by
    rintro rfl
    exact different (Option.some.inj (ends.symm.trans alsoEnds))
  have pairwise := List.pairwise_filterMap.mp (List.pairwise_map.mp distinct)
  have symmetric : Std.Symm fun event later : ε =>
      ∀ entry, ((journal.ends event).bind fun key => journal.entry (s.stage key)) = some entry →
        ∀ another, ((journal.ends later).bind fun key => journal.entry (s.stage key)) =
          some another → value entry ≠ value another :=
    ⟨fun _ _ apart other told entry alsoTold => (apart entry alsoTold other told).symm⟩
  exact pairwise.forall member alsoMember apart entry (by rw [ends, Option.bind_some, left]) another
    (by rw [alsoEnds, Option.bind_some, alsoLeft])

end Journal

end Handlers
