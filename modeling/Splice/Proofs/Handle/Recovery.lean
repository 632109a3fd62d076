import Splice.Handle.Recovery
import Splice.Proofs.Exec.Recovery
import Splice.Proofs.Handle.Control

/-!
# Composed recovery over handles

When a handler or a cleanup is accepted for a handle, and what a call of the composed handle does:
it is the call of the target, recovered by a call of the handler or finalized by one of the cleanup.
-/

namespace Splice.Handle

/-- A handler takes the error in front of what the target takes, and returns what it returns. -/
theorem catchException_eq_ok_iff {target handler h : Handle} {cls : String} :
    target.catchException cls handler = .ok h ↔
      (handler.params = .error :: target.params ∧ handler.ret = target.ret) ∧
        h = catching target.sig cls target handler := by
  unfold catchException expectParams expectReturn
  simp only [require_bind_eq_ok_iff, pure_eq_ok_iff, and_assoc]

/-- A cleanup takes the error in front of what the target takes, and the result if there is one. -/
theorem tryFinally_eq_ok_iff {target cleanup h : Handle} :
    target.tryFinally cleanup = .ok h ↔
      (cleanup.params = cleanupLocals target.ret ++ target.params ∧ cleanup.ret = target.ret) ∧
        h = finalized target.sig target cleanup := by
  unfold tryFinally expectParams expectReturn
  simp only [require_bind_eq_ok_iff, pure_eq_ok_iff, and_assoc]

/-- What a cleanup is told of an outcome: the error, which is null after a result, and the result,
which is a default after a failure and missing if there is never one. -/
def cleanupValues (ret : Ty) : Except Exception Value → List Value
  | .ok v => if ret = .void then [.null] else [.null, v]
  | .error e => if ret = .void then [.error e] else [.error e, ret.default]

theorem call_catching (turns : Nat) (sig : Signature) (cls : String) (target handler : Handle)
    (args : List Value) : (catching sig cls target handler).call turns args =
      (target.call turns args).recover cls fun e => handler.call turns (.error e :: args) := by
  rw [call, Exec.recover]
  refine bind_congr fun outcome => ?_
  cases outcome <;> rfl

theorem call_finalized (turns : Nat) (sig : Signature) (target cleanup : Handle)
    (args : List Value) : (finalized sig target cleanup).call turns args =
      (target.call turns args).finalize fun outcome =>
        cleanup.call turns (cleanupValues target.ret outcome ++ args) := by
  rw [call, Exec.finalize]
  refine bind_congr fun outcome => ?_
  by_cases hvoid : target.ret = .void
  · cases outcome <;> simp only [cleanupValues, if_pos hvoid] <;> rfl
  · cases outcome <;> simp only [cleanupValues, if_neg hvoid] <;> rfl

end Splice.Handle
