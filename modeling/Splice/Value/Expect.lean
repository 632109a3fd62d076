import Splice.Fault

/-!
# Values of an expected kind

Each reader gives the content of a value of one kind and faults on any other value, null included.
`Value.compare` orders two values of one ordered kind.
-/

namespace Splice.Value

/-- The content that a reader found, or the fault that the value is of another kind. -/
def orUnexpected (v : Value) (expected : Kind) (content : Option α) : Except Fault α :=
  match content with
  | some a => .ok a
  | none => .error (.unexpected expected v.kind)

def expectBool (v : Value) : Except Fault Bool := v.orUnexpected .bool v.asBool?

def expectInt (v : Value) : Except Fault Int32 := v.orUnexpected .int v.asInt?

def expectLong (v : Value) : Except Fault Int64 := v.orUnexpected .long v.asLong?

def expectStr (v : Value) : Except Fault String := v.orUnexpected .str v.asStr?

def expectRecord (v : Value) : Except Fault Record := v.orUnexpected .record v.asRecord?

def expectArray (v : Value) : Except Fault ArrayRef := v.orUnexpected .array v.asArray?

def expectError (v : Value) : Except Fault Exception := v.orUnexpected .error v.asError?

/-- The order of values: `false` before `true`, numbers by value, floating point numbers by the
total order of patterns, texts by code point. Values of two kinds, or of a kind without an order,
are incomparable, and null is compared with nothing. -/
def compare : Value → Value → Except Fault Ordering
  | bool a, bool b => .ok (Ord.compare a.toNat b.toNat)
  | int a, int b => .ok (Ord.compare a.toInt b.toInt)
  | long a, long b => .ok (Ord.compare a.toInt b.toInt)
  | double a, double b => .ok (a.totalCompare b)
  | str _ a, str _ b => .ok (Ord.compare a b)
  | null, _ => .error .comparedNull
  | _, null => .error .comparedNull
  | a, b => .error (.incomparable a.kind b.kind)

/-- The sign of an ordering as an integer value. -/
def ofOrdering : Ordering → Value
  | .lt => int (-1)
  | .eq => int 0
  | .gt => int 1

@[simp] theorem expectBool_bool (b : Bool) : (bool b).expectBool = .ok b := rfl

@[simp] theorem expectInt_int (i : Int32) : (int i).expectInt = .ok i := rfl

end Splice.Value
