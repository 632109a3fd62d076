import Splice.Exec

/-!
# Iterators in the world

Whoever holds an iterator draws from the same source, so a value that one of them has drawn is not
drawn by another. An iterator over given values produces each of them once and in order.
-/

namespace Splice

/-- Takes the values of a cell from the front. -/
def Source.ofCell (cell : Nat) : Source where
  pull _ memory :=
    match memory.cells[cell]? with
    | some (v :: rest) =>
      { value := some v, memory := { memory with cells := memory.cells.setIfInBounds cell rest } }
    | _ => { value := none, memory }

namespace Iterator

/-- A new iterator over given values. -/
def ofList (items : List Value) : Exec Value := fun w =>
  .ok (.iterator w.iterators.size)
    { w with
      cells := w.cells.push items
      iterators := w.iterators.push (.ofCell w.cells.size) }

/-- Draws the next value, if there is one left. -/
def next (addr : Nat) : Exec (Option Value) := fun w => .ok (w.draw addr).1 (w.draw addr).2

end Iterator

end Splice
