import Mathlib.Init

/-!
# Code whose effects outlast its errors

Nothing takes back what code of a service did before it failed. A step that succeeds
hands its value and its state on, and a step that fails ends the code in the state it
left.
-/

namespace Services

universe u
variable {σ ε : Type u} {α β : Type u} {code : ExceptT ε (StateM σ) α}
  {next : α → ExceptT ε (StateM σ) β} {state after : σ} {value : α} {message : ε}

/-- What the code answers, and the state it leaves. -/
def exec (code : ExceptT ε (StateM σ) α) (state : σ) : Except ε α × σ := code.run.run state

/-- Returning a value leaves the state alone. -/
@[simp] theorem exec_pure : exec (pure value : ExceptT ε (StateM σ) α) state = (.ok value, state) :=
  rfl

/-- Code that fails keeps what it did to the state before. Nothing is rolled back. -/
@[simp] theorem exec_throw :
    exec (throw message : ExceptT ε (StateM σ) α) state = (.error message, state) :=
  rfl

/-- Code that has no effects. -/
@[simp] theorem exec_lift (result : Except ε α) :
    exec (liftM result : ExceptT ε (StateM σ) α) state = (result, state) :=
  rfl

/-- Reading the state leaves it alone. -/
@[simp] theorem exec_get : exec (get : ExceptT ε (StateM σ) σ) state = (.ok state, state) := rfl

/-- Code that rewords its error. -/
@[simp] theorem exec_adapt {ε' : Type u} (reworded : ε → ε') :
    exec (ExceptT.adapt reworded code) state =
      ((exec code state).1.mapError reworded, (exec code state).2) :=
  rfl

/-- Writing replaces the whole state, and cannot fail. -/
@[simp] theorem exec_set :
    exec (set after : ExceptT ε (StateM σ) PUnit) state = (.ok ⟨⟩, after) := rfl

/-- Code in sequence: the second part starts where the first ends, unless it fails. -/
theorem exec_bind : exec (code >>= next) state =
    match exec code state with
    | (.ok value, after) => exec (next value) after
    | (.error message, after) => (.error message, after) := by
  unfold exec ExceptT.run StateT.run
  simp only [bind, ExceptT.bind, ExceptT.mk, StateT.bind, ExceptT.bindCont]
  cases code state with
  | mk result after =>
    cases result with
    | ok value => rfl
    | error message => rfl

end Services
