import Splice.Value.Basic

/-!
# The world

The mutable objects of all values, the supply of identities and the log of observable effects. An
object's address is its position among the objects of its sort, so an address once given out stays
valid and is never given out again.

An iterator is code that runs each time it is drawn from, and it acts on the same data as a native
callable does. The memory is these data without the code.
-/

namespace Splice

/-- The data that all running code shares. -/
structure Memory where
  /-- Field values of each record, in declaration order. -/
  records : Array (List Value) := #[]
  /-- Elements of each array. -/
  arrays : Array (List Value) := #[]
  /-- What sources keep from one draw to the next. Several sources may use the same cell. -/
  cells : Array (List Value) := #[]
  /-- The next identity of a text, a list or an exception. -/
  nextId : Nat := 0
  /-- What native callables and sources have reported, in order. -/
  effects : Array String := #[]

/-- What a draw has come to, with sources `σ` for the iterators that it has made. -/
structure Pulled (σ : Type) where
  /-- The value that has been drawn, unless there is none left. -/
  value : Option Value
  memory : Memory
  made : List σ := []

/-- The code of an iterator. Nothing is asked of it: it may have values for ever or again after it
has had none, report effects, write records and arrays, and share a cell with other sources. -/
structure Source where
  /-- Draws a value, where `fresh` is the address of the next iterator to be made. -/
  pull : (fresh : Nat) → Memory → Pulled Source

/-- All mutable state that running callables share. -/
structure World extends Memory where
  /-- The source of each iterator. -/
  iterators : Array Source := #[]

namespace World

/-- The field values of a record; none for an address that was never given out. -/
def fieldsOf (w : World) (r : Record) : List Value := w.records[r.addr]?.getD []

/-- The elements of an array; none for an address that was never given out. -/
def elementsOf (w : World) (a : ArrayRef) : List Value := w.arrays[a.addr]?.getD []

/-- Replaces the field values of a record. -/
def setFields (w : World) (r : Record) (values : List Value) : World :=
  { w with records := w.records.setIfInBounds r.addr values }

/-- Replaces the elements of an array. -/
def setElements (w : World) (a : ArrayRef) (items : List Value) : World :=
  { w with arrays := w.arrays.setIfInBounds a.addr items }

/-- What a draw from an iterator gives, and the world after it. No value is drawn at an address that
was never given out. -/
def draw (w : World) (addr : Nat) : Option Value × World :=
  match w.iterators[addr]? with
  | none => (none, w)
  | some source =>
    let pulled := source.pull w.iterators.size w.toMemory
    (pulled.value,
      { toMemory := pulled.memory, iterators := w.iterators ++ pulled.made.toArray })

/-- A bound on how deep mutable objects nest in one another unless they form a cycle. -/
def depthBound (w : World) : Nat := w.records.size + w.arrays.size + 1

/-- Reading a record back gives what was written, provided the record exists. -/
theorem fieldsOf_setFields (w : World) (r : Record) (values : List Value)
    (h : r.addr < w.records.size) : (w.setFields r values).fieldsOf r = values := by
  simp [fieldsOf, setFields, h]

/-- Writing one record leaves the records at all other addresses alone. -/
theorem fieldsOf_setFields_ne (w : World) {r s : Record} (values : List Value)
    (h : r.addr ≠ s.addr) : (w.setFields r values).fieldsOf s = w.fieldsOf s := by
  simp [fieldsOf, setFields, h]

theorem elementsOf_setElements (w : World) (a : ArrayRef) (items : List Value)
    (h : a.addr < w.arrays.size) : (w.setElements a items).elementsOf a = items := by
  simp [elementsOf, setElements, h]

theorem elementsOf_setElements_ne (w : World) {a b : ArrayRef} (items : List Value)
    (h : a.addr ≠ b.addr) : (w.setElements a items).elementsOf b = w.elementsOf b := by
  simp [elementsOf, setElements, h]

end World

end Splice
