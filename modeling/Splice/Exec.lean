import Splice.Value.Expect
import Splice.World

/-!
# Running computations

An `Exec` computation acts on the world and ends in one of three ways: it returns a value, it fails
with an exception, or it does not finish within the turns granted to its loops. Failure keeps the
world as it stood, so effects made before it remain; nothing runs after it unless `attempt` makes
the outcome a value.
-/

namespace Splice

/-- How a computation ends. -/
inductive Outcome (α : Type) where
  | ok (value : α) (world : World)
  | thrown (exception : Exception) (world : World)
  /-- Some loop did not come to its end. -/
  | unfinished

/-- A computation that acts on the world. -/
def Exec (α : Type) : Type := World → Outcome α

namespace Exec

@[always_inline, inline] protected def pure (a : α) : Exec α := fun w => .ok a w

@[always_inline, inline] protected def bind (x : Exec α) (f : α → Exec β) : Exec β := fun w =>
  match x w with
  | .ok a w => f a w
  | .thrown e w => .thrown e w
  | .unfinished => .unfinished

instance : Monad Exec where
  pure := Exec.pure
  bind := Exec.bind

/-- Running a sequence runs the first part, and the second one only after it has returned. -/
theorem bind_apply (x : Exec α) (f : α → Exec β) (w : World) :
    (x >>= f) w =
      match x w with
      | .ok a w' => f a w'
      | .thrown e w' => .thrown e w'
      | .unfinished => .unfinished := rfl

@[simp] theorem pure_apply (a : α) (w : World) : (pure a : Exec α) w = .ok a w := rfl

theorem bind_pure' (x : Exec α) : (x >>= pure) = x := by
  funext w
  rw [bind_apply]
  cases x w <;> rfl

theorem bind_assoc' (x : Exec α) (f : α → Exec β) (g : β → Exec γ) :
    (x >>= f) >>= g = x >>= fun a => f a >>= g := by
  funext w
  simp only [bind_apply]
  cases x w <;> rfl

instance : LawfulMonad Exec :=
  LawfulMonad.mk' Exec bind_pure' (fun _ _ => rfl) bind_assoc'

/-- Fails with an exception object. -/
def throw (e : Exception) : Exec α := fun w => .thrown e w

/-- Does not come to an end. -/
def unfinished : Exec α := fun _ => .unfinished

/-- Reads the world. -/
@[inline] def world : Exec World := fun w => .ok w w

/-- Changes the world. -/
@[inline] def update (f : World → World) : Exec Unit := fun w => .ok () (f w)

/-- An identity that no other object has. -/
def freshId : Exec Nat := fun w => .ok w.nextId { w with nextId := w.nextId + 1 }

/-- Fails with a new exception for a fault. -/
def raise (fault : Fault) : Exec α := do
  throw ⟨← freshId, fault.cls, fault.message⟩

/-- The result of a pure computation, its fault raised. -/
def ofExcept : Except Fault α → Exec α
  | .ok a => pure a
  | .error fault => raise fault

instance : MonadLift (Except Fault) Exec := ⟨ofExcept⟩

/-- Makes the way a computation ended, by value or exception, a value. -/
def attempt (x : Exec α) : Exec (Except Exception α) := fun w =>
  match x w with
  | .ok a w => .ok (.ok a) w
  | .thrown e w => .ok (.error e) w
  | .unfinished => .unfinished

/-- Reports an observable effect. -/
def report (effect : String) : Exec Unit :=
  update fun w => { w with effects := w.effects.push effect }

/-- A new text object. -/
def newStr (text : String) : Exec Value := return .str (← freshId) text

/-- A new list object. -/
def newList (items : List Value) : Exec Value := return .list (← freshId) items

/-- A new exception object. -/
def newException (cls message : String) : Exec Exception := return ⟨← freshId, cls, message⟩

/-- A new exception object of the class for failures of no special sort. -/
def newRuntimeException (message : String) : Exec Exception :=
  newException "RuntimeException" message

/-! ## Loops

A loop that need not end is granted a number of turns and is unfinished when they run out. -/

/-- Steps a state as long as the test holds of it. -/
def repeatWhile (test : σ → Exec Bool) (step : σ → Exec σ) : (turns : Nat) → σ → Exec σ
  | 0, _ => unfinished
  | turns + 1, s => do
    if ← test s then repeatWhile test step turns (← step s) else return s

/-- Steps a state once, and again as long as the test holds of the new state. -/
def repeatUntil (test : σ → Exec Bool) (step : σ → Exec σ) : (turns : Nat) → σ → Exec σ
  | 0, _ => unfinished
  | turns + 1, s => do
    let s ← step s
    if ← test s then repeatUntil test step turns s else return s

/-- Steps a state with each of `count` successive integers from `index` on. -/
def countUp (step : Int32 → σ → Exec σ) : (count : Nat) → (index : Int32) → σ → Exec σ
  | 0, _, s => return s
  | count + 1, index, s => do countUp step count (index + 1) (← step index s)

/-- Steps a state with each value drawn from a source until it has no more. -/
def drain (draw : Exec (Option Value)) (step : Value → σ → Exec σ) : (turns : Nat) → σ → Exec σ
  | 0, _ => unfinished
  | turns + 1, s => do
    match ← draw with
    | none => return s
    | some v => drain draw step turns (← step v s)

end Exec

end Splice
