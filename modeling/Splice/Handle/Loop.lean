import Splice.Handle.Branch

/-!
# Loops over handles

A loop is composed of handles that share the parameters of the whole. Its body and its test take the
loop's own values, the state and what the loop runs over, in front of them.
-/

namespace Splice.Handle

/-- The type of a loop's state, which the initial state fixes and which must have values. -/
def loopState (init : Handle) : Except CompositionError Ty :=
  if init.ret = .void then .error (.voidInit init.sig) else .ok init.ret

/-- Starts from `init(a…)` and replaces the state `v` by `body(v, a…)` as long as `pred(v, a…)`. -/
def loopWhile (init pred body : Handle) : Except CompositionError Handle := do
  let state ← loopState init
  expectParams .loopPredicate pred (state :: init.params)
  expectReturn .loopPredicate pred .bool
  expectParams .loopBody body (state :: init.params)
  expectReturn .loopBody body state
  return whileLoop init.sig init pred body

/-- Like `loopWhile`, with the first test after the first run of the body. -/
def loopDoWhile (init body pred : Handle) : Except CompositionError Handle := do
  let state ← loopState init
  expectParams .loopBody body (state :: init.params)
  expectReturn .loopBody body state
  expectParams .loopPredicate pred (state :: init.params)
  expectReturn .loopPredicate pred .bool
  return doWhileLoop init.sig init body pred

/-- Replaces the state `v` by `body(v, i, a…)` for each `i` from `start(a…)` up to, and not with,
`stop(a…)`. -/
def loopCounted (start stop init body : Handle) : Except CompositionError Handle := do
  let state ← loopState init
  expectParams .loopStart start init.params
  expectReturn .loopStart start .int
  expectParams .loopEnd stop init.params
  expectReturn .loopEnd stop .int
  expectParams .loopBody body (state :: .int :: init.params)
  expectReturn .loopBody body state
  return countedLoop init.sig start stop init body

/-- Replaces the state `v` by `body(v, x, a…)` for each `x` that the iterator `source(a…)` has
yet to produce. -/
def loopIterated (source init body : Handle) : Except CompositionError Handle := do
  let state ← loopState init
  match source.ret with
  | .iterator elem =>
    expectParams .loopSource source init.params
    expectParams .loopBody body (state :: elem :: init.params)
    expectReturn .loopBody body state
    return iteratedLoop init.sig source init body
  | _ => throw (.iteratorNeeded source.sig)

end Splice.Handle
