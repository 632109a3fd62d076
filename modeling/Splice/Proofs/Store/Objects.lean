import Splice.Proofs.Closure.Storage

/-!
# Objects in the world

What reading, writing and copying arrays does to the world, and what reading records does. An
operation leaves all objects alone but the array that it writes, which `World.ChangesOnly` says.
-/

namespace Splice

/-- A record of a world has one value for each field of its schema. -/
def Record.Complete (r : Record) (w : World) : Prop :=
  (w.fieldsOf r).length = r.schema.fields.length

instance (r : Record) (w : World) : Decidable (r.Complete w) :=
  inferInstanceAs (Decidable (_ = _))

/-- Only records of a schema pass for its instances. -/
theorem Schema.exists_record_of_isInstance {s : Schema} {v : Value} (hv : s.isInstance v = true) :
    ∃ r, v = .record r ∧ r.schema = s := by
  cases v with
  | record r => exact ⟨r, rfl, of_decide_eq_true hv⟩
  | _ => exact nomatch hv

/-- A copy holds what its source holds, as far as both reach, and defaults behind the end of
that. -/
theorem ArrayRef.getElem?_resized (elem : Ty) (items : List Value) (length i : Nat) :
    (resized elem items length)[i]? =
      if i < length then some (items[i]?.getD elem.default) else none := by
  rw [resized, List.getElem?_append, List.length_take, List.getElem?_take,
    List.getElem?_replicate]
  -- an element lies in the part that was copied or in the part that was filled up
  grind

/-- The class of an exception is that of null, or of an object of another kind, where an object of
one kind is needed. -/
def Exception.IsRefusal (e : Exception) : Prop :=
  e.cls = Fault.nullPointer ∨ e.cls = Fault.classCast

/-- What is no record of a schema is refused. -/
theorem Schema.exists_expectInstance_error (s : Schema) {v : Value} (hv : s.isInstance v = false) :
    ∃ fault, s.expectInstance v = .error fault ∧
      (fault.cls = Fault.nullPointer ∨ fault.cls = Fault.classCast) := by
  cases v with
  | record r =>
    have hr : r.schema ≠ s := of_decide_eq_false hv
    exact ⟨.foreignRecord r.schema.name s.name, if_neg hr, .inr rfl⟩
  | null => exact ⟨_, rfl, .inl rfl⟩
  | _ => exact ⟨_, rfl, .inr rfl⟩

/-- The records of a schema inhabit its type. -/
theorem Schema.ty_admits {s : Schema} {r : Record} (hr : r.schema = s) :
    s.ty.admits (.record r) = true := by
  simp [ty, Ty.admits, hr]

namespace World

/-- The world with one more array. -/
def addArray (w : World) (items : List Value) : World := { w with arrays := w.arrays.push items }

variable {w w₁ w₂ : World} {items : List Value} {a b : ArrayRef}

/-- The elements of an array are those of its storage, whatever else the worlds differ in. -/
theorem elementsOf_congr (h : w₁.arrays[a.addr]? = w.arrays[a.addr]?) :
    w₁.elementsOf a = w.elementsOf a := by
  rw [elementsOf, elementsOf, h]

/-- The new array is found at the first address that was free. -/
theorem elementsOf_addArray_new (w : World) (items : List Value) (elem : Ty) :
    (w.addArray items).elementsOf ⟨elem, w.arrays.size⟩ = items := by
  simp [elementsOf, addArray]

/-- Writing to arrays makes none. -/
theorem size_setElements : (w.setElements a items).arrays.size = w.arrays.size := by
  simp [setElements]

/-- One array is one more address. -/
theorem size_addArray : (w.addArray items).arrays.size = w.arrays.size + 1 := Array.size_push ..

/-- No record differs between two worlds, and of the arrays that were there only some. -/
structure ChangesOnly (addrs : List Nat) (w w' : World) : Prop where
  records_eq : w'.records = w.records
  size_le : w.arrays.size ≤ w'.arrays.size
  kept : ∀ a, a < w.arrays.size → a ∉ addrs → w'.arrays[a]? = w.arrays[a]?

namespace ChangesOnly

variable {addrs more : List Nat}

theorem refl (addrs : List Nat) (w : World) : ChangesOnly addrs w w :=
  ⟨rfl, Nat.le_refl _, fun _ _ _ => rfl⟩

/-- What neither of two changes touches is kept by both together. -/
theorem trans (h : ChangesOnly addrs w w₁) (h' : ChangesOnly addrs w₁ w₂) :
    ChangesOnly addrs w w₂ where
  records_eq := h'.records_eq.trans h.records_eq
  size_le := Nat.le_trans h.size_le h'.size_le
  kept a ha hmem := (h'.kept a (Nat.lt_of_lt_of_le ha h.size_le) hmem).trans (h.kept a ha hmem)

/-- A change of some arrays is one of more arrays, in particular. -/
theorem mono (h : ChangesOnly addrs w w₁) (hmore : addrs ⊆ more) : ChangesOnly more w w₁ :=
  ⟨h.records_eq, h.size_le, fun a ha hmem => h.kept a ha fun hmem' => hmem (hmore hmem')⟩

/-- Writing to an array changes that array alone. -/
theorem setElements (w : World) (a : ArrayRef) (items : List Value) :
    ChangesOnly [a.addr] w (w.setElements a items) := by
  refine ⟨rfl, Nat.le_of_eq size_setElements.symm, fun b _ hmem => ?_⟩
  exact Array.getElem?_setIfInBounds_ne fun h => hmem (List.mem_singleton.2 h.symm)

/-- An array that is made takes no other's place. -/
theorem addArray (addrs : List Nat) (w : World) (items : List Value) :
    ChangesOnly addrs w (w.addArray items) := by
  refine ⟨rfl, by rw [size_addArray]; exact Nat.le_succ _, fun b hb _ => ?_⟩
  exact Array.getElem?_push_lt ..|>.trans (Array.getElem?_eq_getElem hb).symm

/-- The identities that are given out do not matter. -/
theorem nextId (addrs : List Nat) (w : World) (id : Nat) :
    ChangesOnly addrs w { w with nextId := id } := ⟨rfl, Nat.le_refl _, fun _ _ _ => rfl⟩

/-- An array that was there and is not among the changed ones holds what it held. -/
theorem elementsOf_eq (h : ChangesOnly addrs w w₁) (ha : a.addr < w.arrays.size)
    (hmem : a.addr ∉ addrs) : w₁.elementsOf a = w.elementsOf a :=
  elementsOf_congr (h.kept a.addr ha hmem)

/-- All records hold what they held. -/
theorem fieldsOf_eq (h : ChangesOnly addrs w w₁) (r : Record) : w₁.fieldsOf r = w.fieldsOf r := by
  rw [fieldsOf, fieldsOf, h.records_eq]

end ChangesOnly

/-- Arrays that have been made while the world changed, each another one. -/
structure Made (w w' : World) (made : List ArrayRef) : Prop where
  nodup : (made.map ArrayRef.addr).Nodup
  size_le : ∀ a ∈ made, w.arrays.size ≤ a.addr
  allocated : ∀ a ∈ made, a.addr < w'.arrays.size

theorem Made.nil (w w' : World) : Made w w' [] := ⟨List.nodup_nil, nofun, nofun⟩

/-- The first array is made at the first free address, which all later ones are behind. -/
theorem Made.cons {made : List ArrayRef} (h : Made w₁ w₂ made) (elem : Ty)
    (hsize : w₁.arrays.size = w.arrays.size + 1) (hle : w₁.arrays.size ≤ w₂.arrays.size) :
    Made w w₂ (⟨elem, w.arrays.size⟩ :: made) where
  nodup := List.nodup_cons.2 ⟨fun hmem => by
    obtain ⟨a, ha, haddr⟩ := List.mem_map.1 hmem
    -- the new address is the size before, which all addresses of `made` exceed
    exact Nat.not_succ_le_self _ (hsize ▸ haddr ▸ h.size_le a ha), h.nodup⟩
  size_le := List.forall_mem_cons.2 ⟨Nat.le_refl _, fun a ha =>
    Nat.le_trans (hsize ▸ Nat.le_succ _) (h.size_le a ha)⟩
  allocated := List.forall_mem_cons.2 ⟨Nat.le_trans (Nat.le_of_eq hsize.symm) hle, h.allocated⟩

end World

/-! ## Runs -/

/-- A run that has returned goes on with what it has returned. -/
theorem Exec.bind_of_ok {x : Exec α} {f : α → Exec β} {a : α} {w w' : World} (h : x w = .ok a w') :
    (x >>= f) w = f a w' := by
  rw [bind_apply, h]

/-- A run that has thrown goes on with nothing. -/
theorem Exec.bind_of_thrown {x : Exec α} {f : α → Exec β} {e : Exception} {w w' : World}
    (h : x w = .thrown e w') : (x >>= f) w = .thrown e w' := by
  rw [bind_apply, h]

/-- What a run has returned is reported. -/
theorem Exec.attempt_of_ok {x : Exec α} {a : α} {w w' : World} (h : x w = .ok a w') :
    x.attempt w = .ok (.ok a) w' := by
  rw [attempt, h]

/-- What a run has thrown is reported in place of a result, and no longer thrown. -/
theorem Exec.attempt_of_thrown {x : Exec α} {e : Exception} {w w' : World}
    (h : x w = .thrown e w') : x.attempt w = .ok (.error e) w' := by
  rw [attempt, h]

/-- The exception takes the next identity, and this is all that raising it does to the world. -/
theorem Exec.raise_apply (fault : Fault) (w : World) :
    (raise fault : Exec α) w =
      .thrown ⟨w.nextId, fault.cls, fault.message⟩ { w with nextId := w.nextId + 1 } := rfl

namespace Record

variable {r : Record} {i : Nat} {v : Value} {w : World}

/-- The value at a position is read without a change of the world. -/
theorem get_apply (hv : (w.fieldsOf r)[i]? = some v) : r.get i w = .ok v w := by
  rw [get, Exec.bind_of_ok (rfl : Exec.world w = .ok w w), hv]
  rfl

/-- There is no value at a position behind the fields. -/
theorem get_apply_of_none (hv : (w.fieldsOf r)[i]? = none) :
    r.get i w = Exec.raise (r.noSuchField i) w := by
  rw [get, Exec.bind_of_ok (rfl : Exec.world w = .ok w w), hv]

end Record

/-- A run ends, from every world. -/
def Exec.Finishes (x : Exec α) : Prop := ∀ w, x w ≠ .unfinished

namespace Exec.Finishes

/-- A sequence ends if its first run does and what follows ends, whatever the first has returned. -/
theorem bind {x : Exec α} {f : α → Exec β} (hx : x.Finishes) (hf : ∀ a, (f a).Finishes) :
    (x >>= f).Finishes := by
  intro w
  rw [bind_apply]
  cases h : x w with
  | ok a w' => exact hf a w'
  | thrown e w' => exact nofun
  | unfinished => exact absurd h (hx w)

theorem pure (a : α) : (Pure.pure a : Exec α).Finishes := fun _ => nofun

/-- A refusal that is known beforehand is an end, too. -/
theorem lift (x : Except Fault α) : (liftM x : Exec α).Finishes := by
  intro w
  cases x with
  | ok a => exact nofun
  | error fault => exact nofun

theorem update (f : World → World) : (Exec.update f).Finishes := fun _ => nofun

theorem world : Exec.world.Finishes := fun _ => nofun

end Exec.Finishes

namespace ArrayRef

/-- An array is made at once. -/
theorem finishes_ofList (elem : Ty) (items : List Value) : (ofList elem items).Finishes :=
  fun _ => nofun

/-- All elements of an array are read at once. -/
theorem finishes_toList (a : ArrayRef) : a.toList.Finishes := by
  refine .bind .world fun w => ?_
  exact .pure (w.elementsOf a)

/-- The index is checked, and then an element is read. -/
theorem finishes_get (a : ArrayRef) (index : Int32) : (a.get index).Finishes := by
  refine .bind a.finishes_toList fun items => ?_
  refine .bind (.lift (checkIndex index items.length)) fun i => ?_
  exact .pure (items[i]?.getD a.elem.default)

/-- The index is checked, and then an element is written. -/
theorem finishes_set (a : ArrayRef) (index : Int32) (v : Value) : (a.set index v).Finishes := by
  refine .bind a.finishes_toList fun items => ?_
  refine .bind (.lift (checkIndex index items.length)) fun i => ?_
  exact .update (·.setElements a (items.set i v))

/-- A copy is made of the elements that there are. -/
theorem finishes_copyOf (a : ArrayRef) (length : Nat) : (a.copyOf length).Finishes := by
  refine .bind a.finishes_toList fun items => ?_
  exact finishes_ofList a.elem (resized a.elem items length)

end ArrayRef

/-- Steps that all end throw, one after the other, if one of them always throws. -/
theorem Exec.exists_forM_thrown {step : α → Exec PUnit} {items : List α}
    (hfinishes : ∀ a ∈ items, (step a).Finishes)
    (hthrows : ∃ a ∈ items, ∀ w, ∃ e w', step a w = .thrown e w') (w : World) :
    ∃ e w', items.forM step w = .thrown e w' := by
  induction items generalizing w with
  | nil => exact nomatch hthrows
  | cons a items ih =>
    -- the step that throws is the first one, or it is reached unless another one throws before
    obtain ⟨hfinishes_a, hfinishes⟩ := List.forall_mem_cons.1 hfinishes
    cases hstep : step a w with
    | ok u w₁ =>
      obtain ⟨b, hb, hthrows⟩ := hthrows
      obtain rfl | hb := List.mem_cons.1 hb
      · obtain ⟨e, w', he⟩ := hthrows w
        exact nomatch hstep.symm.trans he
      · obtain ⟨e, w', he⟩ := ih hfinishes ⟨b, hb, hthrows⟩ w₁
        exact ⟨e, w', (bind_of_ok hstep).trans he⟩
    | thrown e w' => exact ⟨e, w', bind_of_thrown hstep⟩
    | unfinished => exact absurd hstep (hfinishes_a w)

namespace Value

/-- Reading of an array ends, also if what is read of is none. -/
theorem finishes_getElement (array index : Value) : (array.getElement index).Finishes := by
  refine .bind (.lift array.expectArray) fun a => ?_
  refine .bind (.lift index.expectInt) fun i => ?_
  exact a.finishes_get i

/-- Writing to an array ends, also if what is written to is none. -/
theorem finishes_setElement (array index v : Value) : (array.setElement index v).Finishes := by
  refine .bind (.lift array.expectArray) fun a => ?_
  refine .bind (.lift index.expectInt) fun i => ?_
  exact .bind (a.finishes_set i v) fun _ => .pure unit

/-- Copying an array ends, also if what is copied is none. -/
theorem finishes_arrayCopyOf (array length : Value) : (array.arrayCopyOf length).Finishes := by
  refine .bind (.lift length.expectInt) fun n => ?_
  refine .bind (.lift (ArrayRef.checkLength n)) fun n => ?_
  refine .bind (.lift array.expectArray) fun a => ?_
  exact .bind (a.finishes_copyOf n) fun copy => .pure (Value.array copy)

variable {a : ArrayRef} {index : Int32} {i : Nat} {w : World}

/-- The element at an index is read without a change of the world. -/
theorem getElement_apply {v : Value} (hindex : index.toInt = i)
    (hv : (w.elementsOf a)[i]? = some v) : (array a).getElement (.int index) w = .ok v w := by
  have hchecked : ArrayRef.checkIndex index (w.elementsOf a).length = .ok i :=
    ArrayRef.checkIndex_ok_iff.2 ⟨hindex, (List.getElem?_eq_some_iff.1 hv).1⟩
  change (liftM (ArrayRef.checkIndex index (w.elementsOf a).length) >>= fun i =>
    (pure ((w.elementsOf a)[i]?.getD a.elem.default) : Exec Value)) w = _
  rw [hchecked]
  change Outcome.ok ((w.elementsOf a)[i]?.getD a.elem.default) w = _
  rw [hv, Option.getD_some]

/-- There is no element outside. -/
theorem getElement_apply_of_outside
    (hindex : ¬ (0 ≤ index.toInt ∧ index.toInt < (w.elementsOf a).length)) :
    (array a).getElement (.int index) w =
      Exec.raise (.indexOutside index.toInt (w.elementsOf a).length) w := by
  have hchecked : ArrayRef.checkIndex index (w.elementsOf a).length =
      .error (.indexOutside index.toInt (w.elementsOf a).length) := if_neg hindex
  change (liftM (ArrayRef.checkIndex index (w.elementsOf a).length) >>= fun i =>
    (pure ((w.elementsOf a)[i]?.getD a.elem.default) : Exec Value)) w = _
  rw [hchecked]
  rfl

/-- No index below zero is inside. -/
theorem getElement_apply_of_neg (hindex : index.toInt < 0) :
    (array a).getElement (.int index) w =
      Exec.raise (.indexOutside index.toInt (w.elementsOf a).length) w :=
  getElement_apply_of_outside fun h => Int.not_le_of_gt hindex h.1

/-- Writing inside puts the value in place of one element and answers with nothing. -/
theorem setElement_apply {v : Value} (hindex : index.toInt = i)
    (hi : i < (w.elementsOf a).length) : (array a).setElement (.int index) v w =
      .ok .unit (w.setElements a ((w.elementsOf a).set i v)) := by
  have hchecked : ArrayRef.checkIndex index (w.elementsOf a).length = .ok i :=
    ArrayRef.checkIndex_ok_iff.2 ⟨hindex, hi⟩
  change ((liftM (ArrayRef.checkIndex index (w.elementsOf a).length) >>= fun i =>
    Exec.update (·.setElements a ((w.elementsOf a).set i v))) >>= fun _ =>
    (pure .unit : Exec Value)) w = _
  rw [hchecked]
  rfl

/-- There is no place to write to outside, so the array stays as it is. -/
theorem setElement_apply_of_outside {v : Value}
    (hindex : ¬ (0 ≤ index.toInt ∧ index.toInt < (w.elementsOf a).length)) :
    (array a).setElement (.int index) v w =
      Exec.raise (.indexOutside index.toInt (w.elementsOf a).length) w := by
  have hchecked : ArrayRef.checkIndex index (w.elementsOf a).length =
      .error (.indexOutside index.toInt (w.elementsOf a).length) := if_neg hindex
  change ((liftM (ArrayRef.checkIndex index (w.elementsOf a).length) >>= fun i =>
    Exec.update (·.setElements a ((w.elementsOf a).set i v))) >>= fun _ =>
    (pure .unit : Exec Value)) w = _
  rw [hchecked]
  rfl

/-- The copy is a new array, and its length is the one asked for. -/
theorem arrayCopyOf_apply (hindex : index.toInt = i) :
    (array a).arrayCopyOf (.int index) w = .ok (.array ⟨a.elem, w.arrays.size⟩)
      (w.addArray (ArrayRef.resized a.elem (w.elementsOf a) i)) := by
  have hchecked : ArrayRef.checkLength index = .ok i := by
    rw [ArrayRef.checkLength, if_pos (by omega), hindex]
    rfl
  change (liftM (ArrayRef.checkLength index) >>= fun length =>
    (do return .array (← a.copyOf length) : Exec Value)) w = _
  rw [hchecked]
  rfl

/-- The value of a field of a record is read without a change of the world. -/
theorem getField_apply {s : Schema} {r : Record} {v : Value} (hr : r.schema = s)
    (hv : (w.fieldsOf r)[i]? = some v) : (record r).getField s i w = .ok v w := by
  rw [getField, Schema.expectInstance_ok_iff.2 ⟨rfl, hr⟩]
  exact Record.get_apply hv

/-- A complete record has a value at the position of each field. -/
theorem getField_apply_of_complete {s : Schema} {r : Record} (hr : r.schema = s)
    (hcomplete : r.Complete w) (hi : i < s.fields.length) :
    (record r).getField s i w = .ok ((w.fieldsOf r)[i]?.getD unit) w := by
  have hlt : i < (w.fieldsOf r).length := hcomplete.symm ▸ hr.symm ▸ hi
  refine getField_apply hr ?_
  rw [List.getElem?_eq_getElem hlt, Option.getD_some]

/-- Only records of a schema have its fields. Null is refused, and so is every other value. -/
theorem getField_apply_of_isInstance_eq_false {s : Schema} {v : Value}
    (hv : s.isInstance v = false) :
    ∃ e, v.getField s i w = .thrown e { w with nextId := w.nextId + 1 } ∧ e.IsRefusal := by
  obtain ⟨fault, hfault, hcls⟩ := s.exists_expectInstance_error hv
  rw [getField, hfault]
  exact ⟨_, rfl, hcls⟩

end Value

end Splice
