import Splice.Proofs.Store.Objects

/-!
# Histories of stores

Objects that hold values in numbered places are told apart by their addresses. A history lists what
has happened to them, and what a place holds can be read off it: the value that was last written
there, or else the one that was there first. `StoreHistory.Recounts` says that objects hold this,
and `StoreHistory.Leads` that the events of a history lead from some objects to others. Objects that
a history recounts are recounted by the longer one after more events; they have kept their lengths,
and those that were not written to have kept their values.
-/

namespace Splice

/-- How many places the object at an address has. -/
def lengthOf (objects : Array (List Value)) (addr : Nat) : Nat := (objects[addr]?.getD []).length

/-- What can happen to objects. -/
inductive StoreEvent where
  /-- An object has come to be, with the values that it holds first. -/
  | made (addr : Nat) (values : List Value)
  /-- An object of a given length has come to be as a copy of another one. Its places behind the end
  of that one are filled up. -/
  | copied (source addr length : Nat) (fill : Value)
  | wrote (addr place : Nat) (v : Value)

/-- What has happened to objects, the latest event first. -/
abbrev StoreHistory : Type := List StoreEvent

namespace StoreHistory

/-- The value that was last written to a place of an object, or else the one that it held first. -/
def valueAt : StoreHistory → (addr place : Nat) → Option Value
  | [], _, _ => none
  | .made new values :: earlier, addr, i =>
    if new = addr then values[i]? else valueAt earlier addr i
  | .copied source new length fill :: earlier, addr, i =>
    if new = addr then
      if i < length then some ((valueAt earlier source i).getD fill) else none
    else valueAt earlier addr i
  | .wrote written j v :: earlier, addr, i =>
    if written = addr ∧ j = i then some v else valueAt earlier addr i

/-- The length that an object was made with. -/
def lengthAt : StoreHistory → (addr : Nat) → Option Nat
  | [], _ => none
  | .made new values :: earlier, addr =>
    if new = addr then some values.length else lengthAt earlier addr
  | .copied _ new length _ :: earlier, addr =>
    if new = addr then some length else lengthAt earlier addr
  | .wrote .. :: earlier, addr => lengthAt earlier addr

/-- Objects hold what a history says. -/
structure Recounts (history : StoreHistory) (objects : Array (List Value)) : Prop where
  value_eq : ∀ addr i, (objects[addr]?.getD [])[i]? = history.valueAt addr i
  length_eq : ∀ addr, objects[addr]?.map List.length = history.lengthAt addr

variable {history : StoreHistory} {objects : Array (List Value)}

/-- The empty history tells of no objects. -/
theorem recounts_nil : Recounts [] #[] := ⟨fun _ _ => rfl, fun _ => rfl⟩

namespace Recounts

/-- A history tells of the objects that are there. -/
theorem lengthAt_eq_none_iff (h : history.Recounts objects) {addr : Nat} :
    history.lengthAt addr = none ↔ objects.size ≤ addr := by
  rw [← h.length_eq, Option.map_eq_none_iff, Array.getElem?_eq_none_iff]

/-- A history tells the lengths of the objects that are there. -/
theorem lengthAt_eq_some_iff (h : history.Recounts objects) {addr n : Nat} :
    history.lengthAt addr = some n ↔ addr < objects.size ∧ lengthOf objects addr = n := by
  rw [← h.length_eq, Option.map_eq_some_iff, lengthOf]
  constructor
  · rintro ⟨values, hvalues, rfl⟩
    exact ⟨(Array.getElem?_eq_some_iff.1 hvalues).1, by rw [hvalues, Option.getD_some]⟩
  · rintro ⟨haddr, rfl⟩
    exact ⟨objects[addr], Array.getElem?_eq_getElem haddr, by
      rw [Array.getElem?_eq_getElem haddr, Option.getD_some]⟩

/-- An object that a history tells of is there. -/
theorem lt_of_lengthAt_ne_none (h : history.Recounts objects) {addr : Nat}
    (haddr : history.lengthAt addr ≠ none) : addr < objects.size :=
  Nat.lt_of_not_le fun hle => haddr (h.lengthAt_eq_none_iff.2 hle)

/-- The lengths of all objects are those that the history tells. -/
theorem lengthOf_eq (h : history.Recounts objects) :
    lengthOf objects = fun addr => (history.lengthAt addr).getD 0 := by
  funext addr
  rw [lengthOf, ← h.length_eq]
  cases objects[addr]? <;> rfl

/-- A new object is behind all others and holds what it was made with. -/
theorem made (h : history.Recounts objects) (values : List Value) :
    Recounts (.made objects.size values :: history) (objects.push values) where
  value_eq addr i := by
    rw [valueAt, ← h.value_eq, Array.getElem?_push]
    by_cases haddr : addr = objects.size
    · rw [if_pos haddr, if_pos haddr.symm, Option.getD_some]
    · rw [if_neg haddr, if_neg (Ne.symm haddr)]
  length_eq addr := by
    rw [lengthAt, ← h.length_eq, Array.getElem?_push]
    by_cases haddr : addr = objects.size
    · rw [if_pos haddr, if_pos haddr.symm, Option.map_some]
    · rw [if_neg haddr, if_neg (Ne.symm haddr)]

/-- A copy is a new object with the values of its source, as far as these and it reach. -/
theorem copied (h : history.Recounts objects) (source length : Nat) (elem : Ty) :
    Recounts (.copied source objects.size length elem.default :: history)
      (objects.push (ArrayRef.resized elem (objects[source]?.getD []) length)) := by
  have hmade := h.made (ArrayRef.resized elem (objects[source]?.getD []) length)
  refine ⟨fun addr i => (hmade.value_eq addr i).trans ?_, fun addr => ?_⟩
  · rw [valueAt, valueAt, ArrayRef.getElem?_resized, h.value_eq]
  · rw [hmade.length_eq, lengthAt, lengthAt, ArrayRef.length_resized]

/-- Writing to a place that an object has changes this place only. -/
theorem wrote (h : history.Recounts objects) {addr i : Nat}
    (hi : i < lengthOf objects addr) (v : Value) :
    Recounts (.wrote addr i v :: history)
      (objects.setIfInBounds addr ((objects[addr]?.getD []).set i v)) := by
  rw [lengthOf] at hi
  -- only an object that is there has places
  have haddr : addr < objects.size := by
    refine Nat.lt_of_not_le fun hle => ?_
    rw [Array.getElem?_eq_none hle] at hi
    exact Nat.not_lt_zero _ hi
  refine ⟨fun b j => ?_, fun b => ?_⟩
  · rw [valueAt, ← h.value_eq, Array.getElem?_setIfInBounds]
    by_cases hb : addr = b
    · subst hb
      rw [if_pos rfl, if_pos haddr, Option.getD_some, List.getElem?_set]
      by_cases hj : i = j
      · rw [if_pos hj, if_pos hi, if_pos ⟨rfl, hj⟩]
      · rw [if_neg hj, if_neg fun h => hj h.2]
    · rw [if_neg hb, if_neg fun h => hb h.1]
  · rw [lengthAt, ← h.length_eq, Array.getElem?_setIfInBounds]
    by_cases hb : addr = b
    · subst hb
      rw [if_pos rfl, if_pos haddr, Array.getElem?_eq_getElem haddr]
      exact congrArg some List.length_set
    · rw [if_neg hb]

end Recounts

/-- Events lead from some objects to others: they have happened one after the other, the latest
event is the first one of the list. -/
inductive Leads (objects : Array (List Value)) : StoreHistory → Array (List Value) → Prop
  | start : Leads objects [] objects
  | made {later : StoreHistory} {objects₁ : Array (List Value)} (h : Leads objects later objects₁)
      (values : List Value) :
      Leads objects (.made objects₁.size values :: later) (objects₁.push values)
  | copied {later : StoreHistory} {objects₁ : Array (List Value)} (h : Leads objects later objects₁)
      (source length : Nat) (elem : Ty) :
      Leads objects (.copied source objects₁.size length elem.default :: later)
        (objects₁.push (ArrayRef.resized elem (objects₁[source]?.getD []) length))
  | wrote {later : StoreHistory} {objects₁ : Array (List Value)} {addr i : Nat}
      (h : Leads objects later objects₁) (hi : i < lengthOf objects₁ addr) (v : Value) :
      Leads objects (.wrote addr i v :: later)
        (objects₁.setIfInBounds addr ((objects₁[addr]?.getD []).set i v))

namespace Leads

variable {objects₁ objects' : Array (List Value)} {earlier later : StoreHistory}

/-- Events that follow on events lead from the first objects to the last. -/
theorem trans (h : earlier.Leads objects objects₁) (h' : later.Leads objects₁ objects') :
    (later ++ earlier).Leads objects objects' := by
  induction h' with
  | start => exact h
  | made _ values ih => exact ih.made values
  | copied _ source length elem ih => exact ih.copied source length elem
  | wrote _ hi v ih => exact ih.wrote hi v

/-- What was told before and what has happened since tell what is there. -/
theorem recounts (h : later.Leads objects objects') (hw : history.Recounts objects) :
    (later ++ history).Recounts objects' := by
  induction h with
  | start => exact hw
  | made _ values ih => exact ih.made values
  | copied _ source length elem ih => exact ih.copied source length elem
  | wrote _ hi v ih => exact ih.wrote hi v

/-- Objects are never taken away. -/
theorem size_le (h : later.Leads objects objects') : objects.size ≤ objects'.size := by
  induction h with
  | start => exact Nat.le_refl _
  | made _ _ ih | copied _ _ _ _ ih =>
    rw [Array.size_push]
    exact Nat.le_succ_of_le ih
  | wrote _ _ _ ih =>
    rw [Array.size_setIfInBounds]
    exact ih

/-- An object keeps its length. -/
theorem length_eq (h : later.Leads objects objects') {addr : Nat} (haddr : addr < objects.size) :
    objects'[addr]?.map List.length = objects[addr]?.map List.length := by
  induction h with
  | start => rfl
  | made h _ ih | copied h _ _ _ ih =>
    -- new objects come behind those that were there
    rw [Array.getElem?_push, if_neg (Nat.ne_of_lt (Nat.lt_of_lt_of_le haddr h.size_le)), ih]
  | @wrote _ objects₁ written i h _ v ih =>
    rw [← ih, Array.getElem?_setIfInBounds]
    by_cases hwritten : written = addr
    · subst hwritten
      have hlt := Nat.lt_of_lt_of_le haddr h.size_le
      rw [if_pos rfl, if_pos hlt, Array.getElem?_eq_getElem hlt]
      exact congrArg some List.length_set
    · rw [if_neg hwritten]

/-- An object that is not written to keeps its values. -/
theorem getElem?_eq (h : later.Leads objects objects') {addr : Nat} (haddr : addr < objects.size)
    (hunwritten : ∀ i v, .wrote addr i v ∉ later) : objects'[addr]? = objects[addr]? := by
  induction h with
  | start => rfl
  | made h _ ih | copied h _ _ _ ih =>
    rw [Array.getElem?_push, if_neg (Nat.ne_of_lt (Nat.lt_of_lt_of_le haddr h.size_le))]
    exact ih fun i v hmem => hunwritten i v (List.mem_cons_of_mem _ hmem)
  | @wrote _ objects₁ written i h _ v ih =>
    have hwritten : written ≠ addr := fun heq => hunwritten i v (heq ▸ List.mem_cons_self)
    rw [Array.getElem?_setIfInBounds_ne hwritten]
    exact ih fun i v hmem => hunwritten i v (List.mem_cons_of_mem _ hmem)

/-- No object is told to have another length than before. -/
theorem lengthAt_eq (h : later.Leads objects objects') (hw : history.Recounts objects)
    {addr n : Nat} (hn : history.lengthAt addr = some n) :
    (later ++ history).lengthAt addr = some n := by
  rw [← (h.recounts hw).length_eq, h.length_eq (hw.lengthAt_eq_some_iff.1 hn).1, hw.length_eq, hn]

end Leads

end StoreHistory

end Splice
