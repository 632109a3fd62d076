import Splice.Proofs.Store.Course

/-!
# Arrays as a store

Arrays are created, measured, read, written and copied by composed closures. A run of such an
operation has done what it says, or it was not valid and has done nothing but throw. From the
history of what was done the outcome of every later operation is known: a read returns what was
last written to that place of that array, whoever else holds the array and whatever has failed in
between. `Closure.arrays_are_stores` says so of all courses of operations.
-/

namespace Splice

open ArrayRef (checkLength resized)

namespace Value

/-- A new array of a given length, every element at its type's default. -/
def newArray (elem : Ty) (length : Value) : Exec Value := do
  let length ← checkLength (← length.expectInt)
  return .array (← ArrayRef.new elem length)

/-- The number of elements of an array. -/
def arrayLength (array : Value) : Exec Value := do
  return .int (Int32.ofNat (← (← array.expectArray).length))

end Value

/-- The operations on arrays, with something in the place of each operand. -/
inductive ArrayOp (α : Type) where
  | create (elem : Ty) (length : α)
  | measure (array : α)
  | read (array index : α)
  | write (array index value : α)
  | copy (array length : α)

namespace ArrayOp

/-- The operation on values. -/
def run : ArrayOp Value → Exec Value
  | create elem length => Value.newArray elem length
  | measure array => array.arrayLength
  | read array index => array.getElement index
  | write array index v => array.setElement index v
  | copy array length => array.arrayCopyOf length

/-- The closure of the operation on operands. -/
def compose : ArrayOp Expr → Except CompositionError Closure
  | create elem length => Closure.newArray elem length
  | measure array => Closure.arrayLength array
  | read array index => Closure.getElement array index
  | write array index value => Closure.setElement array index value
  | copy array length => Closure.arrayCopyOf array length

def operands : ArrayOp α → List α
  | create _ length => [length]
  | measure array => [array]
  | read array index => [array, index]
  | write array index value => [array, index, value]
  | copy array length => [array, length]

/-- Runs something for each operand, from left to right. -/
def mapM (f : α → Exec β) : ArrayOp α → Exec (ArrayOp β)
  | create elem length => return create elem (← f length)
  | measure array => return measure (← f array)
  | read array index => return read (← f array) (← f index)
  | write array index value => return write (← f array) (← f index) (← f value)
  | copy array length => return copy (← f array) (← f length)

/-- The operands are of the types that the operation needs. -/
def WellTyped : ArrayOp Expr → Prop
  | create _ length => length.ty = .int
  | measure array => ∃ elem, array.ty = .array elem
  | read array index => (∃ elem, array.ty = .array elem) ∧ index.ty = .int
  | write array index value => array.ty = .array value.ty ∧ index.ty = .int ∧ value.ty ≠ .void
  | copy array length => (∃ elem, array.ty = .array elem) ∧ length.ty = .int

/-- The operands are arrays where arrays are needed, no length is negative, and no index lies
outside its array. -/
def Valid (lengthOf : Nat → Nat) : ArrayOp Value → Prop
  | create _ (.int length) => 0 ≤ length.toInt
  | measure (.array _) => True
  | read (.array a) (.int index) => 0 ≤ index.toInt ∧ index.toInt < lengthOf a.addr
  | write (.array a) (.int index) _ => 0 ≤ index.toInt ∧ index.toInt < lengthOf a.addr
  | copy (.array _) (.int length) => 0 ≤ length.toInt
  | _ => False

/-- What an operation that has returned adds to the history of all arrays. -/
def recorded : ArrayOp Value → (result : Value) → StoreHistory
  | create elem (.int length), .array a =>
    [.made a.addr (List.replicate length.toInt.toNat elem.default)]
  | write (.array a) (.int index) v, _ => [.wrote a.addr index.toInt.toNat v]
  | copy (.array a) (.int length), .array b =>
    [.copied a.addr b.addr length.toInt.toNat a.elem.default]
  | _, _ => []

/-! ## Composed operations -/

/-- A well-typed operation on arrays is composed. -/
theorem exists_compose {op : ArrayOp Expr} (h : op.WellTyped) : ∃ c, op.compose = .ok c := by
  cases op with
  | create elem length =>
    exact Closure.exists_of_native [.int] [length] (congrArg (fun ty => [ty]) h) (by simp) _ _
  | measure array =>
    obtain ⟨elem, harray⟩ := h
    rw [compose, Closure.arrayLength, Closure.arrayElement, harray]
    exact Closure.exists_of_native [.array elem] [array] (by simp [harray]) (by simp) _ _
  | read array index =>
    obtain ⟨⟨elem, harray⟩, hindex⟩ := h
    rw [compose, Closure.getElement, Closure.arrayElement, harray]
    exact Closure.exists_of_native [.array elem, .int] [array, index] (by simp [harray, hindex])
      (by simp) _ _
  | write array index value =>
    obtain ⟨harray, hindex, hvalue⟩ := h
    rw [compose, Closure.setElement, Closure.arrayElement, harray]
    exact Closure.exists_of_native [.array value.ty, .int, value.ty] [array, index, value]
      (by simp [harray, hindex]) (by simp [hvalue.symm]) _ _
  | copy array length =>
    obtain ⟨⟨elem, harray⟩, hlength⟩ := h
    rw [compose, Closure.arrayCopyOf, Closure.arrayElement, harray]
    exact Closure.exists_of_native [.array elem, .int] [array, length] (by simp [harray, hlength])
      (by simp) _ _

/-- A composed operation is a native function, which does to the values of the operands what the
operation does. -/
theorem exists_native_of_compose {op : ArrayOp Expr} {c : Closure} (hc : op.compose = .ok c) :
    ∃ types ret run, (do Closure.fold (← Handle.native types ret run) op.operands) = .ok c ∧
      ∀ f : Expr → Exec Value, (do run (← op.operands.mapM f)) = (do (← op.mapM f).run) := by
  cases op
  case create elem length =>
    refine ⟨_, _, _, hc, fun f => ?_⟩
    simp only [operands, mapM, List.mapM_cons, List.mapM_nil, bind_assoc, pure_bind]
    rfl
  -- the others are composed only if there is a type of elements
  all_goals
    obtain ⟨elem, -, hc⟩ := bind_eq_ok_iff.1 hc
    refine ⟨_, _, _, hc, fun f => ?_⟩
    simp only [operands, mapM, List.mapM_cons, List.mapM_nil, bind_assoc, pure_bind]
    rfl

/-- The operands of a composed operation run from left to right, and then the operation runs on what
they give. -/
theorem performs_of_compose {op : ArrayOp Expr} {c : Closure} (hc : op.compose = .ok c) :
    c.Performs fun turns env => (do (← op.mapM (Expr.eval turns env)).run) := by
  obtain ⟨types, ret, run, hnative, hrun⟩ := exists_native_of_compose hc
  exact Closure.performs_of_native hnative hrun

/-! ## Runs of operations -/

/-- What an operation does to a world when it returns. -/
inductive Does (w : World) : ArrayOp Value → Value → World → Prop
  | create {elem : Ty} {length : Int32} (hlength : 0 ≤ length.toInt) :
      Does w (create elem (.int length)) (.array ⟨elem, w.arrays.size⟩)
        (w.addArray (List.replicate length.toInt.toNat elem.default))
  | measure (a : ArrayRef) :
      Does w (measure (.array a)) (.int (Int32.ofNat (w.elementsOf a).length)) w
  | read {a : ArrayRef} {index : Int32} {v : Value} (hindex : 0 ≤ index.toInt)
      (hv : (w.elementsOf a)[index.toInt.toNat]? = some v) :
      Does w (read (.array a) (.int index)) v w
  | write {a : ArrayRef} {index : Int32} (v : Value) (hindex : 0 ≤ index.toInt)
      (hlt : index.toInt.toNat < (w.elementsOf a).length) :
      Does w (write (.array a) (.int index) v) .unit
        (w.setElements a ((w.elementsOf a).set index.toInt.toNat v))
  | copy (a : ArrayRef) {length : Int32} (hlength : 0 ≤ length.toInt) :
      Does w (copy (.array a) (.int length)) (.array ⟨a.elem, w.arrays.size⟩)
        (w.addArray (resized a.elem (w.elementsOf a) length.toInt.toNat))

variable {op : ArrayOp Value} {v : Value} {w w' : World} {history : StoreHistory}

/-- What an operation is said to do when it returns is what its run does. -/
theorem Does.run_eq (h : Does w op v w') : op.run w = .ok v w' := by
  cases h with
  | create hlength =>
    rw [run, Value.newArray, Value.expectInt_int]
    change (liftM (checkLength _) >>= fun n => (do return .array (← ArrayRef.new _ n) : Exec Value))
      w = _
    rw [checkLength, if_pos hlength]
    rfl
  | measure a => rfl
  | read hindex hv => exact Value.getElement_apply (Int.toNat_of_nonneg hindex).symm hv
  | write v hindex hlt => exact Value.setElement_apply (Int.toNat_of_nonneg hindex).symm hlt
  | copy a hlength => exact Value.arrayCopyOf_apply (Int.toNat_of_nonneg hlength).symm

/-- A valid operation does something. -/
theorem exists_does (h : op.Valid (lengthOf w.arrays)) : ∃ v w', Does w op v w' := by
  have hlt {a : ArrayRef} {index : Int32}
      (h : 0 ≤ index.toInt ∧ index.toInt < (w.elementsOf a).length) :
      index.toInt.toNat < (w.elementsOf a).length := (Int.toNat_lt h.1).2 h.2
  cases op with
  | create elem length =>
    cases length with
    | int length => exact ⟨_, _, .create h⟩
    | _ => exact absurd h id
  | measure array =>
    cases array with
    | array a => exact ⟨_, _, .measure a⟩
    | _ => exact absurd h id
  | read array index =>
    cases array with
    | array a =>
      cases index with
      | int index => exact ⟨_, _, .read h.1 (List.getElem?_eq_getElem (hlt h))⟩
      | _ => exact absurd h id
    | _ => exact absurd h id
  | write array index v =>
    cases array with
    | array a =>
      cases index with
      | int index => exact ⟨_, _, .write v h.1 (hlt h)⟩
      | _ => exact absurd h id
    | _ => exact absurd h id
  | copy array length =>
    cases array with
    | array a =>
      cases length with
      | int length => exact ⟨_, _, .copy a h⟩
      | _ => exact absurd h id
    | _ => exact absurd h id

/-- An operation that is not valid throws, and that is all it does. -/
theorem exists_raise_of_not_valid (h : ¬ op.Valid (lengthOf w.arrays)) :
    ∃ fault, op.run w = Exec.raise fault w := by
  have hlength {n : Int32} (hn : ¬ 0 ≤ n.toInt) : checkLength n = .error (.negativeLength n) :=
    if_neg hn
  -- an operation is invalid for another cause in each case, and the run meets that cause first
  cases op with
  | create elem length =>
    cases length with
    | int n =>
      refine ⟨.negativeLength n, ?_⟩
      change (liftM (checkLength n) >>= fun n => _ : Exec Value) w = _
      rw [hlength h]
      rfl
    | _ => exact ⟨_, rfl⟩
  | measure array =>
    cases array with
    | array a => exact absurd trivial h
    | _ => exact ⟨_, rfl⟩
  | read array index =>
    cases array with
    | array a =>
      cases index with
      | int n => exact ⟨_, Value.getElement_apply_of_outside h⟩
      | _ => exact ⟨_, rfl⟩
    | _ => exact ⟨_, rfl⟩
  | write array index v =>
    cases array with
    | array a =>
      cases index with
      | int n => exact ⟨_, Value.setElement_apply_of_outside h⟩
      | _ => exact ⟨_, rfl⟩
    | _ => exact ⟨_, rfl⟩
  | copy array length =>
    cases length with
    | int n =>
      -- the length is checked before the array is looked at
      by_cases hn : 0 ≤ n.toInt
      · have hcopy : array.arrayCopyOf (.int n) =
            (do return .array (← (← array.expectArray).copyOf n.toInt.toNat)) := by
          change (liftM (checkLength n) >>= fun n => _ : Exec Value) = _
          rw [checkLength, if_pos hn]
          rfl
        cases array with
        | array a => exact absurd hn h
        | _ => exact ⟨_, congrFun hcopy w⟩
      · refine ⟨.negativeLength n, ?_⟩
        change (liftM (checkLength n) >>= fun n => _ : Exec Value) w = _
        rw [hlength hn]
        rfl
    | _ => exact ⟨_, rfl⟩

/-- What an operation adds to the history is what it has done. -/
theorem Does.leads (h : Does w op v w') : (op.recorded v).Leads w.arrays w'.arrays := by
  cases h with
  | create hlength => exact .made .start _
  | measure a => exact .start
  | read hindex hv => exact .start
  | write v hindex hlt => exact .wrote .start hlt v
  | copy a hlength => exact .copied .start a.addr _ a.elem

/-- The operations on all arrays. -/
def store : StoreOps (ArrayOp Value) where
  run := run
  objects w := w.arrays
  Valid := Valid
  Does := Does
  recorded := recorded
  run_eq := Does.run_eq
  exists_does := exists_does
  exists_raise := exists_raise_of_not_valid
  leads := Does.leads
  kept_nextId _ _ := rfl

/-- An operation returns exactly what it is said to do. -/
theorem run_eq_ok_iff : op.run w = .ok v w' ↔ Does w op v w' := store.run_eq_ok_iff

/-- An integer can tell the lengths of the arrays that operations make. -/
theorem lengthAt_recorded_append {addr n : Nat}
    (h : StoreHistory.lengthAt (op.recorded v ++ history) addr = some n) :
    n < 0x80000000 ∨ history.lengthAt addr = some n := by
  have hlt (length : Int32) : length.toInt.toNat < 0x80000000 := by
    have := length.toInt_lt
    omega
  -- a made array and a copied one have the length of an operand
  unfold recorded at h
  split at h
  · rw [List.singleton_append, StoreHistory.lengthAt, List.length_replicate] at h
    split at h
    · exact .inl (Option.some.inj h ▸ hlt _)
    · exact .inr h
  · exact .inr h
  · rw [List.singleton_append, StoreHistory.lengthAt] at h
    split at h
    · exact .inl (Option.some.inj h ▸ hlt _)
    · exact .inr h
  · exact .inr h

/-- The operands of an operation run one after the other, so they cover the objects if each of them
does. -/
theorem covers_mapM {f : ι → Exec β} {op : ArrayOp ι}
    (hf : ∀ i ∈ op.operands, store.Covers (f i)) : store.Covers (op.mapM f) := by
  cases op with
  | create elem length =>
    obtain ⟨hlength, -⟩ := List.forall_mem_cons.1 hf
    exact hlength.bind fun _ => .pure _
  | measure array =>
    obtain ⟨harray, -⟩ := List.forall_mem_cons.1 hf
    exact harray.bind fun _ => .pure _
  | read array index =>
    obtain ⟨harray, hindex, -⟩ := List.forall_mem_cons.1 hf |>.imp_right List.forall_mem_cons.1
    exact harray.bind fun _ => hindex.bind fun _ => .pure _
  | write array index value =>
    obtain ⟨harray, hrest⟩ := List.forall_mem_cons.1 hf
    obtain ⟨hindex, hvalue, -⟩ := List.forall_mem_cons.1 hrest |>.imp_right List.forall_mem_cons.1
    exact harray.bind fun _ => hindex.bind fun _ => hvalue.bind fun _ => .pure _
  | copy array length =>
    obtain ⟨harray, hlength, -⟩ := List.forall_mem_cons.1 hf |>.imp_right List.forall_mem_cons.1
    exact harray.bind fun _ => hlength.bind fun _ => .pure _

/-- Closures of operations on arrays. -/
def Composed (operands : List Expr) (c : Closure) : Prop :=
  ∃ op : ArrayOp Expr, op.operands = operands ∧ op.compose = .ok c

/-- Closures of operations on arrays run in operations on arrays, if their operands do. -/
theorem composes : store.Composes Composed := by
  rintro operands c ⟨op, rfl, hc⟩
  exact ⟨_, performs_of_compose hc, fun turns env hoperands =>
    (covers_mapM hoperands).bind fun op => .run op⟩

end ArrayOp

/-! ## Arrays after a history -/

namespace World

/-- A history tells of all arrays of a world. Their lengths are such that an integer can tell
them. -/
structure ArraysTold (w : World) (history : StoreHistory) : Prop where
  recounts : history.Recounts w.arrays
  lengthAt_lt : ∀ addr n, history.lengthAt addr = some n → n < 0x80000000

/-- What operations on arrays do in a world after a history of such operations. -/
structure ArraysFollow (w : World) (history : StoreHistory) : Prop
    extends ArrayOp.store.Follows w history where
  /-- A read returns what was last written there, or what was there first. -/
  read_eq : ∀ (a : ArrayRef) (index : Int32) v w',
    (ArrayOp.read (.array a) (.int index)).run w = .ok v w' →
      history.valueAt a.addr index.toInt.toNat = some v ∧ w' = w
  measure_eq : ∀ (a : ArrayRef) n, history.lengthAt a.addr = some n →
    ∃ length : Int32, (ArrayOp.measure (.array a)).run w = .ok (.int length) w ∧ length.toInt = n
  /-- A new array is none of those that are there. -/
  create_new : ∀ elem length v w', (ArrayOp.create elem length).run w = .ok v w' →
    ∃ a : ArrayRef, v = .array a ∧ a.elem = elem ∧ history.lengthAt a.addr = none
  copy_new : ∀ (a : ArrayRef) length v w', (ArrayOp.copy (.array a) length).run w = .ok v w' →
    ∃ b : ArrayRef, v = .array b ∧ b.elem = a.elem ∧ history.lengthAt b.addr = none
  /-- No later write to a copy is seen in its source, and none to the source in the copy. -/
  copy_apart : ∀ (a b : ArrayRef) length w₁, history.lengthAt a.addr ≠ none →
    (ArrayOp.copy (.array a) length).run w = .ok (.array b) w₁ →
      ∀ w' log, ArrayOp.store.Course w₁ w' log →
        ((∀ i v, .wrote a.addr i v ∉ ArrayOp.store.history log) →
          w'.elementsOf a = w.elementsOf a) ∧
        ((∀ i v, .wrote b.addr i v ∉ ArrayOp.store.history log) →
          w'.elementsOf b = w₁.elementsOf b)

namespace ArraysTold

variable {w w' : World} {history : StoreHistory} {log : List (ArrayOp Value × Value)}

/-- The empty history tells of a world without arrays. -/
theorem start (hnone : w.arrays = #[]) : w.ArraysTold [] where
  recounts := hnone ▸ StoreHistory.recounts_nil
  lengthAt_lt _ _ h := by cases h

/-- The history of a course goes on telling of all arrays. -/
theorem course (h : w.ArraysTold history) (hcourse : ArrayOp.store.Course w w' log) :
    w'.ArraysTold (ArrayOp.store.history log ++ history) := by
  refine ⟨hcourse.leads.recounts h.recounts, ?_⟩
  -- which operations there were is all that matters for the lengths
  clear hcourse
  induction log with
  | nil => exact h.lengthAt_lt
  | cons entry log ih =>
    intro addr n hn
    rw [StoreOps.history, List.flatMap_cons, List.append_assoc] at hn
    exact (ArrayOp.lengthAt_recorded_append hn).elim id (ih addr n)

/-- After a history that tells of all arrays, operations do what the history says. -/
theorem follow (h : w.ArraysTold history) : w.ArraysFollow history := by
  have hnew : history.lengthAt w.arrays.size = none :=
    h.recounts.lengthAt_eq_none_iff.2 (Nat.le_refl _)
  refine ⟨ArrayOp.store.follows h.recounts, ?read_eq, ?measure_eq, ?create_new, ?copy_new,
    ?copy_apart⟩
  case read_eq =>
    intro a index v w' hrun
    cases ArrayOp.run_eq_ok_iff.1 hrun with
    | read hindex hv => exact ⟨(h.recounts.value_eq a.addr _).symm.trans hv, rfl⟩
  case measure_eq =>
    intro a n hn
    refine ⟨_, (ArrayOp.Does.measure a).run_eq, ?_⟩
    have hlength : (w.elementsOf a).length = n := (h.recounts.lengthAt_eq_some_iff.1 hn).2
    rw [hlength, Int32.toInt_ofNat_of_lt (h.lengthAt_lt a.addr n hn)]
  case create_new =>
    intro elem length v w' hrun
    cases ArrayOp.run_eq_ok_iff.1 hrun with
    | create hlength => exact ⟨_, rfl, rfl, hnew⟩
  case copy_new =>
    intro a length v w' hrun
    cases ArrayOp.run_eq_ok_iff.1 hrun with
    | copy _ hlength => exact ⟨_, rfl, rfl, hnew⟩
  case copy_apart =>
    intro a b length w₁ ha hrun w' log hcourse
    cases ArrayOp.run_eq_ok_iff.1 hrun with
    | copy _ hlength =>
      refine ⟨fun hunwritten => ?_, fun hunwritten => ?_⟩
      · -- for the source, the copy belongs to the operations behind it, and writes nothing to it
        have hleads := (ArrayOp.Does.copy a hlength).leads.trans hcourse.leads
        have haddr := h.recounts.lt_of_lengthAt_ne_none ha
        refine elementsOf_congr (hleads.getElem?_eq haddr fun i v hmem => ?_)
        obtain hmem | hmem := List.mem_append.1 hmem
        · exact hunwritten i v hmem
        · cases List.mem_singleton.1 hmem
      · refine elementsOf_congr (hcourse.leads.getElem?_eq ?_ hunwritten)
        exact Nat.lt_of_lt_of_eq (Nat.lt_succ_self _) size_addArray.symm

end ArraysTold

end World

namespace Closure

/-- Arrays are a store of lists of fixed lengths. Operations on them are composed for operands of
the right types, run on the values of the operands, and follow the history of all that was done
before. -/
theorem arrays_are_stores :
    (∀ op : ArrayOp Expr, op.WellTyped → ∃ c, op.compose = .ok c) ∧
      (∀ (op : ArrayOp Expr) c, op.compose = .ok c →
        c.Performs fun turns env => (do (← op.mapM (Expr.eval turns env)).run)) ∧
      (∀ c, (Expr.closure c).Over ArrayOp.Composed → ∀ turns values,
        ArrayOp.store.Covers (c.invoke turns values)) ∧
      (∀ w : World, w.arrays = #[] → w.ArraysTold []) ∧
      ∀ (w₀ : World) history, w₀.ArraysTold history → ∀ w log, ArrayOp.store.Course w₀ w log →
        w.ArraysFollow (ArrayOp.store.history log ++ history) :=
  ⟨fun _ => ArrayOp.exists_compose, fun _ _ => ArrayOp.performs_of_compose,
    fun _ => ArrayOp.store.covers_invoke ArrayOp.composes, fun _ => .start,
    fun _ _ htold _ _ hcourse => (htold.course hcourse).follow⟩

/-- An array of two elements is copied to one of three, and then its second element is written. -/
theorem arrays_are_stores_of_copy :
    let a : ArrayRef := ⟨.int, 0⟩
    let b : ArrayRef := ⟨.int, 1⟩
    let log : List (ArrayOp Value × Value) :=
      [(.write (.array a) (.int 1) (.int 7), .unit), (.copy (.array a) (.int 3), .array b),
        (.create .int (.int 2), .array a)]
    ∃ w : World, ArrayOp.store.Course {} w log ∧
      (ArrayOp.read (.array a) (.int 1)).run w = .ok (.int 7) w ∧
      (ArrayOp.read (.array b) (.int 1)).run w = .ok (.int 0) w ∧
      ∃ e, (ArrayOp.read (.array b) (.int 3)).run w = .thrown e { w with nextId := 1 } := by
  intro a b log
  let w₁ : World := { arrays := #[[.int 0, .int 0]] }
  let w₂ : World := { arrays := #[[.int 0, .int 0], [.int 0, .int 0, .int 0]] }
  let w₃ : World := { arrays := #[[.int 0, .int 7], [.int 0, .int 0, .int 0]] }
  have hcreate : (ArrayOp.create .int (.int 2)).run {} = .ok (.array a) w₁ := rfl
  have hcopy : (ArrayOp.copy (.array a) (.int 3)).run w₁ = .ok (.array b) w₂ := rfl
  have hwrite : (ArrayOp.write (.array a) (.int 1) (.int 7)).run w₂ = .ok .unit w₃ := rfl
  have hcourse : ArrayOp.store.Course {} w₃ log :=
    ((StoreOps.Course.start.returned hcreate).returned hcopy).returned hwrite
  obtain ⟨-, -, -, hstart, hfollow⟩ := arrays_are_stores
  have hw := hfollow {} [] (hstart {} rfl) w₃ log hcourse
  refine ⟨w₃, hcourse, ?_, ?_, ?_⟩
  · obtain ⟨v, w', hrun⟩ := (hw.returns_iff (.read (.array a) (.int 1))).2 ⟨by decide, by decide⟩
    obtain ⟨hv, rfl⟩ := hw.read_eq a 1 v w' hrun
    obtain rfl := Option.some.inj hv
    exact hrun
  · obtain ⟨v, w', hrun⟩ := (hw.returns_iff (.read (.array b) (.int 1))).2 ⟨by decide, by decide⟩
    obtain ⟨hv, rfl⟩ := hw.read_eq b 1 v w' hrun
    obtain rfl := Option.some.inj hv
    exact hrun
  · exact hw.throws (.read (.array b) (.int 3)) fun h => absurd h.2 (by decide)

end Closure

end Splice
