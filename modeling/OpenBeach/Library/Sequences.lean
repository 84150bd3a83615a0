import Mathlib.Data.List.Dedup
import Mathlib.Data.List.Perm.Lattice
import Mathlib.Order.Lattice

/-!
# Lists kept by hand

Programs keep indexes, enumerations and statistics of a list by loops of their own. What
is appended at every event is what the history tells, read from its oldest event on; what
is overwritten is what it told last. What holds of every event after those before it is
proved event by event. A list to which entries are appended as they are dated is in the
order of time.
Grouping a list by a key loses and repeats nothing if the keys are distinct and cover
it. The first occurrences of a list are the list itself exactly if nothing repeats. A
scan for the smallest value that starts from a bound finds the bound exactly if no
value is below it. A stricter selection keeps a part of what a wider one keeps.
-/

namespace Sequences

universe u v
variable {α : Type u} {β : Type v}

section Chronicles

variable {δ : Type v}

/-- What a history, most recent event first, tells in the order of its events. -/
def chronicle (told : α → Option δ) (history : List α) : List δ :=
  history.reverse.filterMap told

/-- The most recent event is told last. Histories grow at the front, chronicles at the end. -/
theorem chronicle_cons (told : α → Option δ) (event : α) (history : List α) :
    chronicle told (event :: history) = chronicle told history ++ (told event).toList := by
  rw [chronicle, List.reverse_cons, List.filterMap_append]
  cases seen : told event <;> simp [chronicle, seen]

/-- What is told was told by some event, and nothing that an event tells is left out. -/
theorem mem_chronicle {told : α → Option δ} {history : List α} {d : δ} :
    d ∈ chronicle told history ↔ ∃ event ∈ history, told event = some d := by
  simp [chronicle]

/-- What the most recent event that tells anything tells. -/
def latest (told : α → Option δ) (history : List α) : Option δ := history.findSome? told

/-- The most recent event has the last word, unless it tells nothing. -/
theorem latest_cons (told : α → Option δ) (event : α) (history : List α) :
    latest told (event :: history) = (told event).or (latest told history) := by
  rw [latest, List.findSome?_cons]
  cases told event <;> rfl

/-- What is told last was told by an event after which nothing was told. -/
theorem latest_eq_some {told : α → Option δ} {history : List α} {d : δ} :
    latest told history = some d ↔ ∃ newer event older, history = newer ++ event :: older ∧
      told event = some d ∧ ∀ other ∈ newer, told other = none :=
  List.findSome?_eq_some_iff

/-- Every event is as it has to be after the events before it. -/
def EachAfter (P : α → List α → Prop) (history : List α) : Prop :=
  ∀ newer event older, history = newer ++ event :: older → P event older

/-- Nothing has happened, so nothing has to be checked. -/
theorem eachAfter_nil (P : α → List α → Prop) : EachAfter P [] := by
  intro newer event older impossible
  simp at impossible

/-- One more event. -/
theorem EachAfter.cons {P : α → List α → Prop} {event : α} {history : List α}
    (each : EachAfter P history) (here : P event history) : EachAfter P (event :: history) := by
  intro newer other older split
  cases newer with
  | nil =>
    obtain ⟨rfl, rfl⟩ := List.cons.inj split
    exact here
  | cons newest rest =>
    obtain ⟨rfl, rfl⟩ := List.cons.inj split
    exact each rest other older rfl

end Chronicles

section Timelines

variable {τ : Type v} [Preorder τ] {date : α → τ} {now : τ} {l : List α}

/-- A list in the order of its dates, none of them in the future. -/
structure Dated (date : α → τ) (now : τ) (l : List α) : Prop where
  ordered : l.Pairwise fun earlier later => date earlier ≤ date later
  past : ∀ a ∈ l, date a ≤ now

/-- An empty list is in order, at any time. -/
theorem dated_nil (date : α → τ) (now : τ) : Dated date now [] := ⟨List.Pairwise.nil, by simp⟩

/-- Time goes on. -/
theorem Dated.later (dated : Dated date now l) {moment : τ} (later : now ≤ moment) :
    Dated date moment l :=
  ⟨dated.ordered, fun a member => le_trans (dated.past a member) later⟩

/-- What is dated now comes last. -/
theorem Dated.append (dated : Dated date now l) {a : α} (today : date a = now) :
    Dated date now (l ++ [a]) where
  ordered := by
    refine List.pairwise_append.mpr ⟨dated.ordered, List.pairwise_singleton _ a, ?_⟩
    intro earlier member last here
    obtain rfl := List.mem_singleton.mp here
    rw [today]
    exact dated.past earlier member
  past := by
    intro b member
    rcases List.mem_append.mp member with old | here
    · exact dated.past b old
    · obtain rfl := List.mem_singleton.mp here
      exact le_of_eq today

/-- Only the dates of the elements matter. -/
theorem Dated.congr (dated : Dated date now l) {date' : α → τ} (same : ∀ a ∈ l, date' a = date a) :
    Dated date' now l where
  ordered := dated.ordered.imp_of_mem fun first second ordered => by
    rw [same _ first, same _ second]
    exact ordered
  past a member := by
    rw [same a member]
    exact dated.past a member

end Timelines

section Groups

variable [DecidableEq α] [DecidableEq β]

/-- Each element is in its own group, once for each occurrence of its key. -/
theorem count_groups (key : α → β) (keys : List β) (l : List α) (a : α) :
    (keys.flatMap fun k => l.filter fun x => key x = k).count a =
      keys.count (key a) * l.count a := by
  induction keys with
  | nil => simp
  | cons k rest inductionHypothesis =>
    rw [List.flatMap_cons, List.count_append, inductionHypothesis, List.count_cons]
    by_cases here : key a = k
    · have own : (l.filter fun x => key x = k).count a = l.count a :=
        List.count_filter (decide_eq_true here)
      rw [own, if_pos (beq_iff_eq.mpr here.symm), Nat.add_mul, Nat.one_mul, Nat.add_comm]
    · have none_here : (l.filter fun x => key x = k).count a = 0 := by
        apply List.count_eq_zero.mpr
        intro member
        exact here (of_decide_eq_true (List.mem_filter.mp member).2)
      have other : ¬ (k == key a) = true := fun same => here (beq_iff_eq.mp same).symm
      rw [none_here, if_neg other, Nat.zero_add, Nat.add_zero]

/-- The groups together are a permutation of the list. -/
theorem groups_perm (key : α → β) (keys : List β) (l : List α) (distinct : keys.Nodup)
    (covered : ∀ a ∈ l, key a ∈ keys) :
    (keys.flatMap fun k => l.filter fun x => key x = k).Perm l := by
  apply List.perm_iff_count.mpr
  intro a
  rw [count_groups]
  by_cases member : a ∈ l
  · rw [List.count_eq_one_of_mem distinct (covered a member), Nat.one_mul]
  · rw [List.count_eq_zero_of_not_mem member, Nat.mul_zero]

end Groups

section Occurrences

variable [DecidableEq α]

/-- Every element once, in the order of its first occurrence. -/
def firsts (l : List α) : List α := l.reverse.dedup.reverse

/-- Leaving out repetitions loses no entry. -/
@[simp] theorem mem_firsts {l : List α} {a : α} : a ∈ firsts l ↔ a ∈ l := by
  simp [firsts]

/-- What is left has no repetitions. -/
theorem nodup_firsts (l : List α) : (firsts l).Nodup := by
  simp [firsts, List.nodup_dedup]

/-- The first occurrences are all of the list exactly if nothing repeats. -/
theorem firsts_length {l : List α} : (firsts l).length = l.length ↔ l.Nodup := by
  constructor
  · intro same
    have whole : l.reverse.dedup = l.reverse :=
      (List.dedup_sublist l.reverse).eq_of_length (by simpa [firsts] using same)
    exact List.nodup_reverse.mp (List.dedup_eq_self.mp whole)
  · intro distinct
    unfold firsts
    rw [List.dedup_eq_self.mpr (List.nodup_reverse.mpr distinct), List.reverse_reverse]

/-- A list without repetitions is left as it is. -/
theorem firsts_eq_self {l : List α} (distinct : l.Nodup) : firsts l = l := by
  unfold firsts
  rw [List.dedup_eq_self.mpr (List.nodup_reverse.mpr distinct), List.reverse_reverse]

end Occurrences

section Minima

variable {γ : Type v} [LinearOrder γ]

/-- A scan for the smallest value of the selected elements, from a bound. -/
def lowest (selected : α → Bool) (value : α → γ) (bound : γ) (l : List α) : γ :=
  l.foldl (fun least a => if selected a = true ∧ value a < least then value a else least) bound

/-- The search goes on from whichever bound is the better one after the first entry. It is a loop
with an accumulator, as the code has it. -/
theorem lowest_cons (selected : α → Bool) (value : α → γ) (bound : γ) (a : α) (l : List α) :
    lowest selected value bound (a :: l) =
      lowest selected value (if selected a = true ∧ value a < bound then value a else bound) l :=
  rfl

/-- The scan ends at or below its bound and every selected value. -/
theorem lowest_le (selected : α → Bool) (value : α → γ) (bound : γ) (l : List α) :
    lowest selected value bound l ≤ bound ∧
      ∀ a ∈ l, selected a = true → lowest selected value bound l ≤ value a := by
  induction l generalizing bound with
  | nil => exact ⟨le_refl bound, by simp⟩
  | cons a rest inductionHypothesis =>
    rw [lowest_cons]
    split
    · next lower =>
      obtain ⟨below, others⟩ := inductionHypothesis (value a)
      exact ⟨le_trans below (le_of_lt lower.2), List.forall_mem_cons.mpr ⟨fun _ => below, others⟩⟩
    · next higher =>
      obtain ⟨below, others⟩ := inductionHypothesis bound
      refine ⟨below, List.forall_mem_cons.mpr ⟨?_, others⟩⟩
      intro chosen
      have least : bound ≤ value a := not_lt.mp fun lower => higher ⟨chosen, lower⟩
      exact le_trans below least

/-- It ends at its bound or at a selected value. -/
theorem lowest_mem (selected : α → Bool) (value : α → γ) (bound : γ) (l : List α) :
    lowest selected value bound l = bound ∨
      ∃ a ∈ l, selected a = true ∧ value a = lowest selected value bound l := by
  induction l generalizing bound with
  | nil => exact .inl rfl
  | cons a rest inductionHypothesis =>
    rw [lowest_cons]
    split
    · next lower =>
      rcases inductionHypothesis (value a) with same | ⟨b, member, chosen, same⟩
      · exact .inr ⟨a, List.mem_cons_self, lower.1, same.symm⟩
      · exact .inr ⟨b, List.mem_cons_of_mem a member, chosen, same⟩
    · rcases inductionHypothesis bound with same | ⟨b, member, chosen, same⟩
      · exact .inl same
      · exact .inr ⟨b, List.mem_cons_of_mem a member, chosen, same⟩

end Minima

section Selections

/-- A stricter selection shows a part, in the same order. -/
theorem selection_sublist (shown : α → β) {strict wide : α → Prop} [DecidablePred strict]
    [DecidablePred wide] (l : List α) (implies : ∀ a, strict a → wide a) :
    ((l.filter fun a => decide (strict a)).map shown).Sublist
      ((l.filter fun a => decide (wide a)).map shown) := by
  apply List.Sublist.map
  apply List.monotone_filter_right
  intro a selected
  rw [decide_eq_true_iff] at selected ⊢
  exact implies a selected

end Selections

end Sequences
