import Splice.Handle.Arguments
import Splice.Store.Text
import Splice.Value.Equality

/-!
# Stock functions

A small stock of functions for handles and closures to wrap: arithmetic on `int`, list and text
building, throwing, and checks of a kind. A tag makes a function report each run as an effect.
-/

namespace Splice

/-- A function of the stock. -/
inductive Stock where
  /-- Returns no value. -/
  | unit
  | const (v : Value)
  | arg (index : Nat)
  /-- Joins the written forms of all arguments. -/
  | concat
  | add
  | sub
  | less
  | list
  /-- A new iterator over the arguments, or over the items of a list that is the only argument. -/
  | iter
  /-- The message of an exception. -/
  | message
  /-- The length of a text in bytes. -/
  | size
  | throw (e : Exception)
  /-- Throws if some argument equals a value, and else runs another function. -/
  | throwOn (v : Value) (e : Exception) (other : Stock)
  /-- Returns its first argument, which must be of a kind. -/
  | expect (kind : Kind)

namespace Stock

open Handle (argument)

/-- Faults unless a value is of a kind that can be expected. -/
def checkKind (v : Value) : Kind → Except Fault Unit
  | .bool => do let _ ← v.expectBool
  | .int => do let _ ← v.expectInt
  | .long => do let _ ← v.expectLong
  | .str => do let _ ← v.expectStr
  | .record => do let _ ← v.expectRecord
  | .array => do let _ ← v.expectArray
  | .error => do let _ ← v.expectError
  | _ => .ok ()

/-- Runs a function of the stock. -/
def run : Stock → List Value → Exec Value
  | unit, _ => return .unit
  | const v, _ => return v
  | arg index, args => return argument args index
  | concat, args => do Exec.newStr (String.join (← args.mapM Exec.textOf))
  | add, args => do
    let sum ← args.foldlM (fun sum v => do return sum + (← v.expectInt)) (0 : Int32)
    return .int sum
  | sub, args => do
    let a ← (argument args 0).expectInt
    return .int (a - (← (argument args 1).expectInt))
  | less, args => do
    let order ← (argument args 0).compare (argument args 1)
    return .bool (order = .lt)
  | list, args => Exec.newList args
  | iter, args =>
    match args with
    | [.list _ items] => Iterator.ofList items
    | _ => Iterator.ofList args
  | message, args => do Exec.newStr (← (argument args 0).expectError).message
  | size, args => do return .int (Int32.ofNat (← (argument args 0).expectStr).utf8ByteSize)
  | throw e, _ => Exec.throw e
  | throwOn v e other, args =>
    if args.any (·.equals v) then Exec.throw e else other.run args
  | expect kind, args => do
    checkKind (argument args 0) kind
    return argument args 0

/-- Runs a function of the stock. With a tag, the tag and the arguments are reported first. -/
def runTagged (f : Stock) (tag : Option String) (args : List Value) : Exec Value := do
  if let some tag := tag then
    let texts ← args.mapM Exec.textOf
    Exec.report (tag ++ "(" ++ ", ".intercalate texts ++ ")")
  f.run args

/-- Runs a function of the stock that has to give a boolean. -/
def test (f : Stock) (tag : Option String) (args : List Value) : Exec Bool := do
  (← f.runTagged tag args).expectBool

end Stock

end Splice
