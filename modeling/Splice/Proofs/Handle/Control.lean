import Splice.Handle.Loop
import Splice.Proofs.Handle.Turns

/-!
# Composed control over handles

For a conditional and for each sort of loop: which handles it is composed of when it is accepted,
and how a call of it ends, told by the ends of its parts. Of a loop this is a course of turns behind
what runs before the first turn.
-/

namespace Splice

/-- A result that is given without condition is the only one. -/
theorem pure_eq_ok_iff {a b : α} : (pure a : Except ε α) = .ok b ↔ b = a := by
  change Except.ok a = .ok b ↔ _
  rw [Except.ok.injEq, eq_comm]

/-- The iterator that a loop runs over, by its address. -/
def Value.expectIterator : Value → Except Fault Nat
  | .iterator addr => .ok addr
  | other => .error (.sourceNotIterator other.kind)

namespace Handle

/-! ## Accepted handles -/

/-- A conditional is accepted when its branches have one signature and its test takes their leading
parameters. -/
theorem guardWithTest_eq_ok_iff {test accept reject h : Handle} :
    guardWithTest test accept reject = .ok h ↔
      (test.ret = .bool ∧ reject.params = accept.params ∧ reject.ret = accept.ret ∧
        accept.params.take test.arity = test.params) ∧
      h = guarded accept.sig test accept reject := by
  unfold guardWithTest expectParams expectReturn
  simp only [require_bind_eq_ok_iff, pure_eq_ok_iff, and_assoc]

theorem loopState_bind_eq_ok_iff {init h : Handle} {f : Ty → Except CompositionError Handle} :
    loopState init >>= f = .ok h ↔ init.ret ≠ .void ∧ f init.ret = .ok h := by
  unfold loopState
  by_cases hvoid : init.ret = .void
  · rw [if_pos hvoid]
    exact ⟨fun hh => (nomatch hh), fun hh => absurd hvoid hh.1⟩
  · rw [if_neg hvoid]
    exact ⟨fun hh => ⟨hvoid, hh⟩, fun hh => hh.2⟩

/-- The test and the body of a loop take the state in front of what the initial state takes. -/
theorem loopWhile_eq_ok_iff {init pred body h : Handle} :
    loopWhile init pred body = .ok h ↔
      (init.ret ≠ .void ∧ pred.params = init.ret :: init.params ∧ pred.ret = .bool ∧
        body.params = init.ret :: init.params ∧ body.ret = init.ret) ∧
      h = whileLoop init.sig init pred body := by
  unfold loopWhile expectParams expectReturn
  simp only [loopState_bind_eq_ok_iff, require_bind_eq_ok_iff, pure_eq_ok_iff, and_assoc]

theorem loopDoWhile_eq_ok_iff {init body pred h : Handle} :
    loopDoWhile init body pred = .ok h ↔
      (init.ret ≠ .void ∧ body.params = init.ret :: init.params ∧ body.ret = init.ret ∧
        pred.params = init.ret :: init.params ∧ pred.ret = .bool) ∧
      h = doWhileLoop init.sig init body pred := by
  unfold loopDoWhile expectParams expectReturn
  simp only [loopState_bind_eq_ok_iff, require_bind_eq_ok_iff, pure_eq_ok_iff, and_assoc]

/-- The body of a counted loop takes the state and the index in front. -/
theorem loopCounted_eq_ok_iff {start stop init body h : Handle} :
    loopCounted start stop init body = .ok h ↔
      (init.ret ≠ .void ∧ start.params = init.params ∧ start.ret = .int ∧
        stop.params = init.params ∧ stop.ret = .int ∧
        body.params = init.ret :: .int :: init.params ∧ body.ret = init.ret) ∧
      h = countedLoop init.sig start stop init body := by
  unfold loopCounted expectParams expectReturn
  simp only [loopState_bind_eq_ok_iff, require_bind_eq_ok_iff, pure_eq_ok_iff, and_assoc]

/-- The body of a loop over an iterator takes the state and the element in front. -/
theorem loopIterated_eq_ok_iff {source init body h : Handle} :
    loopIterated source init body = .ok h ↔
      (∃ elem, init.ret ≠ .void ∧ source.ret = .iterator elem ∧ source.params = init.params ∧
        body.params = init.ret :: elem :: init.params ∧ body.ret = init.ret) ∧
      h = iteratedLoop init.sig source init body := by
  unfold loopIterated expectParams expectReturn
  rw [loopState_bind_eq_ok_iff]
  split
  case h_1 elem helem =>
    simp only [require_bind_eq_ok_iff, pure_eq_ok_iff, helem, Ty.iterator.injEq, and_assoc,
      exists_and_left, exists_eq_left']
  case h_2 hnone =>
    constructor
    · intro hh
      exact nomatch hh.2
    · rintro ⟨⟨elem, -, helem, -⟩, -⟩
      exact absurd helem (hnone elem)

/-! ## Ends of calls -/

/-- A call whose result has to have content of some kind, such as a test or a bound. -/
theorem ends_call_read (h : Handle) (args : List Value) (read : Value → Except Fault α) :
    Exec.Ends (fun turns => h.call turns args >>= fun v => Exec.ofExcept (read v)) =
      (h.Ends args).Reads read :=
  Exec.ends_read (h.steady_call args) read

theorem steady_call_read (h : Handle) (args : List Value) (read : Value → Except Fault α) :
    Exec.Steady fun turns => h.call turns args >>= fun v => Exec.ofExcept (read v) :=
  (h.steady_call args).bind fun v => .const (Exec.ofExcept (read v))

/-- A loop that tests first has a course that starts from the initial state. -/
theorem ends_whileLoop (sig : Signature) (init pred body : Handle) (args : List Value) :
    (whileLoop sig init pred body).Ends args = (init.Ends args).Then fun v w o =>
      ∃ n, Course (WhileTurn (fun v => (pred.Ends (v :: args)).Reads Value.expectBool)
        fun v => body.Ends (v :: args)) n v w o := by
  have htest := fun v => pred.steady_call_read (v :: args) Value.expectBool
  have hbody := fun v => body.steady_call (v :: args)
  change Exec.Ends (fun turns => init.call turns args >>= Exec.repeatWhile
    (fun v => pred.call turns (v :: args) >>= fun v => Exec.ofExcept v.expectBool)
    (fun v => body.call turns (v :: args)) turns) = _
  rw [Exec.ends_bind (init.steady_call args) (Exec.steady_repeatWhile htest hbody),
    funext (Exec.ends_repeatWhile htest hbody)]
  simp only [ends_call_read]
  rfl

/-- A loop that steps first has a course that starts from the initial state. -/
theorem ends_doWhileLoop (sig : Signature) (init body pred : Handle) (args : List Value) :
    (doWhileLoop sig init body pred).Ends args = (init.Ends args).Then fun v w o =>
      ∃ n, Course (UntilTurn (fun v => (pred.Ends (v :: args)).Reads Value.expectBool)
        fun v => body.Ends (v :: args)) n v w o := by
  have htest := fun v => pred.steady_call_read (v :: args) Value.expectBool
  have hbody := fun v => body.steady_call (v :: args)
  change Exec.Ends (fun turns => init.call turns args >>= Exec.repeatUntil
    (fun v => pred.call turns (v :: args) >>= fun v => Exec.ofExcept v.expectBool)
    (fun v => body.call turns (v :: args)) turns) = _
  rw [Exec.ends_bind (init.steady_call args) (Exec.steady_repeatUntil htest hbody),
    funext (Exec.ends_repeatUntil htest hbody)]
  simp only [ends_call_read]
  rfl

/-- A counted loop runs its bounds and the initial state first, in this order, and folds its body
over the indices between the bounds. -/
theorem ends_countedLoop (sig : Signature) (start stop init body : Handle) (args : List Value) :
    (countedLoop sig start stop init body).Ends args =
      ((start.Ends args).Reads Value.expectInt).Then fun first =>
        ((stop.Ends args).Reads Value.expectInt).Then fun last =>
          (init.Ends args).Then (Behaviour.fold (fun i v => body.Ends (v :: .int i :: args))
            (indexRange first last)) := by
  have hbody := fun i v => body.steady_call (v :: .int i :: args)
  have hloop := fun first last : Int32 =>
    Exec.steady_countUp hbody (last.toInt - first.toInt).toNat first
  have hinit := fun first last : Int32 => (init.steady_call args).bind (hloop first last)
  have hstop := fun first : Int32 => (stop.steady_call_read args Value.expectInt).bind (hinit first)
  have hsplit : (fun turns => (countedLoop sig start stop init body).call turns args) =
      fun turns => (start.call turns args >>= fun v => Exec.ofExcept v.expectInt) >>= fun first =>
        (stop.call turns args >>= fun v => Exec.ofExcept v.expectInt) >>= fun last =>
          init.call turns args >>= Exec.countUp
            (fun index state => body.call turns (state :: .int index :: args))
            (last.toInt - first.toInt).toNat first := by
    funext turns
    simp only [bind_assoc]
    rfl
  unfold Handle.Ends
  rw [hsplit, Exec.ends_bind (start.steady_call_read args Value.expectInt) hstop, ends_call_read]
  refine congrArg (Behaviour.Then _) (funext fun first => ?_)
  rw [Exec.ends_bind (stop.steady_call_read args Value.expectInt) (hinit first), ends_call_read]
  refine congrArg (Behaviour.Then _) (funext fun last => ?_)
  rw [Exec.ends_bind (init.steady_call args) (hloop first last)]
  exact congrArg (Behaviour.Then _) (funext fun v => Exec.ends_countUp hbody first last v)

/-- A loop over an iterator runs its source and the initial state first, in this order, and has a
course of the values that it draws. -/
theorem ends_iteratedLoop (sig : Signature) (source init body : Handle) (args : List Value) :
    (iteratedLoop sig source init body).Ends args =
      ((source.Ends args).Reads Value.expectIterator).Then fun addr =>
        (init.Ends args).Then fun v w o =>
          ∃ n, Course (DrawTurn addr fun x v => body.Ends (v :: x :: args)) n v w o := by
  have hbody := fun x v => body.steady_call (v :: x :: args)
  have hloop := fun addr => Exec.steady_drain (Iterator.next addr) hbody
  have hinit := fun addr => (init.steady_call args).bind (hloop addr)
  have hsplit : (fun turns => (iteratedLoop sig source init body).call turns args) =
      fun turns => (source.call turns args >>= fun v => Exec.ofExcept v.expectIterator) >>=
        fun addr => init.call turns args >>= Exec.drain (Iterator.next addr)
          (fun x state => body.call turns (state :: x :: args)) turns := by
    funext turns
    rw [bind_assoc, call]
    refine bind_congr fun v => ?_
    cases v <;> rfl
  unfold Handle.Ends
  rw [hsplit, Exec.ends_bind (source.steady_call_read args Value.expectIterator) hinit,
    ends_call_read]
  refine congrArg (Behaviour.Then _) (funext fun addr => ?_)
  rw [Exec.ends_bind (init.steady_call args) (hloop addr)]
  exact congrArg (Behaviour.Then _) (funext fun v => Exec.ends_drain addr hbody v)

end Handle

end Splice
