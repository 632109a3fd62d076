import Splice.Double.Basic
import Splice.Schema.Basic

/-!
# Runtime values

A `Value` is a scalar, an immutable reference value (text, list, exception) that holds its content
and an identity tag, or a reference to a mutable object (record, array, iterator) whose content is
in the `World` under its address. Records carry their schema and arrays their element type, since
neither changes during the object's life.
-/

namespace Splice

/-- A thrown error object. Two exceptions are the same object when their identities agree, so equal
class and message alone do not make them equal. -/
structure Exception where
  id : Nat
  cls : String
  message : String
  deriving DecidableEq

namespace Exception

/-- The class that every exception is an instance of. -/
def root : String := "Exception"

/-- Whether the exception is of a class: its own, or the root class. -/
def isInstanceOf (e : Exception) (cls : String) : Bool := cls = root || e.cls = cls

/-- The class, followed by the message unless that is empty. -/
def text (e : Exception) : String :=
  if e.message.isEmpty then e.cls else e.cls ++ ": " ++ e.message

/-- The written form of the failure of a call with the exception. -/
def failureText (e : Exception) : String := "Invocation failed: " ++ e.text

end Exception

/-- A reference to a record in the world. -/
structure Record where
  schema : Schema
  addr : Nat
  deriving DecidableEq

/-- A reference to an array in the world. -/
structure ArrayRef where
  elem : Ty
  addr : Nat
  deriving DecidableEq

/-- A runtime value. -/
inductive Value where
  /-- The result of a callable that returns no value. -/
  | unit
  | null
  | bool (b : Bool)
  | int (i : Int32)
  | long (l : Int64)
  | double (d : Double)
  | str (id : Nat) (text : String)
  | record (r : Record)
  | array (a : ArrayRef)
  | list (id : Nat) (items : List Value)
  /-- A cursor over the values it still has to produce, which the world holds. -/
  | iterator (addr : Nat)
  | error (e : Exception)

/-- The kind of a value, as error messages name it. -/
inductive Kind where
  | unit | null | bool | int | long | double | str | record | array | list | iterator | error
  deriving DecidableEq

/-- The written form of a kind. -/
def Kind.text : Kind → String
  | unit => "unit"
  | null => "null"
  | bool => "bool"
  | int => "int"
  | long => "long"
  | double => "double"
  | str => "string"
  | record => "record"
  | array => "array"
  | list => "list"
  | iterator => "iterator"
  | error => "error"

namespace Value

instance : Inhabited Value := ⟨unit⟩

/-- The kind of a value. -/
def kind : Value → Kind
  | unit => .unit
  | null => .null
  | bool _ => .bool
  | int _ => .int
  | long _ => .long
  | double _ => .double
  | str _ _ => .str
  | record _ => .record
  | array _ => .array
  | list _ _ => .list
  | iterator _ => .iterator
  | error _ => .error

def isNull (v : Value) : Bool := v.kind = .null

def asBool? : Value → Option Bool
  | bool b => some b
  | _ => none

def asInt? : Value → Option Int32
  | int i => some i
  | _ => none

def asLong? : Value → Option Int64
  | long l => some l
  | _ => none

def asDouble? : Value → Option Double
  | double d => some d
  | _ => none

def asStr? : Value → Option String
  | str _ text => some text
  | _ => none

def asRecord? : Value → Option Record
  | record r => some r
  | _ => none

def asArray? : Value → Option ArrayRef
  | array a => some a
  | _ => none

def asError? : Value → Option Exception
  | error e => some e
  | _ => none

/-- The static type of a value that stands as a constant. Null has the erased type, and so have the
elements of lists and iterators. -/
def staticTy : Value → Ty
  | unit => .void
  | null => .any
  | bool _ => .bool
  | int _ => .int
  | long _ => .long
  | double _ => .double
  | str _ _ => .str
  | record r => r.schema.ty
  | array a => .array a.elem
  | list _ _ => .list .any
  | iterator _ => .iterator .any
  | error _ => .error

end Value

end Splice
