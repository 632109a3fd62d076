import Splice.Proofs.Columns.Refinement
import Splice.Proofs.Store.TypedRecords

/-!
# Records stay well typed

`ColumnAccess.Populates` says what a world, its records and the lists of a factory can come to be
when records are made and written in the ways that there are, with lists being filled and read in
between. All records are well typed then, as long as what is written by position is admitted by the
type of the field; and so nothing that is read of a record or a list is of another type than its
field. Writing by position itself checks the position only, and so the condition cannot be left out.
-/

namespace Splice

open Compose (Gives)

/-! ## Runs that write nothing but arrays -/

/-- Nothing differs between two worlds but arrays, and which identity is the next. -/
def World.AgreesButArrays (w w' : World) : Prop :=
  { w' with arrays := w.arrays, nextId := w.nextId } = w

namespace World.AgreesButArrays

variable {w w₁ w' : World}

/-- Worlds that agree but for arrays with one in between agree but for arrays. -/
theorem trans (h : w.AgreesButArrays w₁) (h' : w₁.AgreesButArrays w') : w.AgreesButArrays w' := by
  rw [AgreesButArrays, ← h, ← h']

/-- No record has been written or made. -/
theorem records_eq (h : w.AgreesButArrays w') : w'.records = w.records := by rw [← h]

end World.AgreesButArrays

/-- A run that has ended has changed nothing but arrays: no record has been written or made. -/
def Exec.OnArrays (x : Exec α) : Prop :=
  ∀ w w', (x w).world? = some w' → w.AgreesButArrays w'

namespace Exec.OnArrays

/-- A run that returns at once changes nothing. -/
theorem pure (a : α) : OnArrays (Pure.pure a : Exec α) := fun _ _ h =>
  Option.some.inj h ▸ rfl

/-- An exception takes an identity, and no array. -/
theorem raise (fault : Fault) : OnArrays (Exec.raise fault : Exec α) := fun _ _ h =>
  Option.some.inj h ▸ rfl

/-- What is refused beforehand takes an identity, and no array. -/
theorem lift (r : Except Fault α) : OnArrays (liftM r : Exec α) := by
  cases r with
  | ok a => exact pure a
  | error fault => exact raise fault

/-- A change of the world is allowed if it changes arrays only. -/
theorem update {f : World → World} (hf : ∀ w : World, w.AgreesButArrays (f w)) :
    OnArrays (Exec.update f) := fun w _ h => Option.some.inj h ▸ hf w

/-- A sequence writes arrays only if its first part does, and its rest wherever the first has
returned. -/
theorem bind_of_ok {x : Exec α} {f : α → Exec β} (hx : OnArrays x)
    (hf : ∀ a w w', x w = .ok a w' → OnArrays (f a)) : OnArrays (x >>= f) := by
  intro w w' h
  rw [Exec.bind_apply] at h
  have hfirst := hx w
  cases hrun : x w with
  | ok a w₁ =>
    rw [hrun] at h hfirst
    exact (hfirst w₁ rfl).trans (hf a w w₁ hrun w₁ w' h)
  | thrown e w₁ =>
    rw [hrun] at h hfirst
    exact hfirst w' h
  | unfinished =>
    rw [hrun] at h
    cases h

/-- A sequence writes arrays only if both of its parts do. -/
theorem bind {x : Exec α} {f : α → Exec β} (hx : OnArrays x) (hf : ∀ a, OnArrays (f a)) :
    OnArrays (x >>= f) := hx.bind_of_ok fun a _ _ _ => hf a

/-- An attempt has changed what its run has changed. -/
theorem attempt {x : Exec α} (hx : OnArrays x) : OnArrays x.attempt := by
  intro w w' h
  have hrun := hx w w'
  unfold Exec.attempt at h
  cases hx : x w <;> rw [hx] at h hrun
  · exact hrun h
  · exact hrun h
  · cases h

/-- Runs for each element of a list, one after the other. -/
theorem mapM {f : ι → Exec α} (hf : ∀ i, OnArrays (f i)) (l : List ι) :
    OnArrays (l.mapM f) := by
  induction l with
  | nil => exact pure _
  | cons i rest ih =>
    rw [List.mapM_cons]
    exact (hf i).bind fun _ => ih.bind fun _ => pure _

/-- Runs for each element of a list, without results. -/
theorem forM {f : ι → Exec PUnit} (hf : ∀ i, OnArrays (f i)) (l : List ι) :
    OnArrays (l.forM f) := by
  induction l with
  | nil => exact pure _
  | cons i rest ih => exact (hf i).bind fun _ => ih

/-- Reading the world changes nothing. -/
theorem world : OnArrays Exec.world := fun _ _ h => Option.some.inj h ▸ rfl

/-- A new array is no record. -/
theorem ofList (elem : Ty) (items : List Value) : OnArrays (ArrayRef.ofList elem items) :=
  fun _ _ h => Option.some.inj h ▸ rfl

/-- All elements are read without a change. -/
theorem toList (a : ArrayRef) : OnArrays a.toList := by
  refine world.bind fun w => ?_
  exact pure (w.elementsOf a)

/-- Elements are read without a change. -/
theorem getElement (array index : Value) : OnArrays (array.getElement index) := by
  refine (lift array.expectArray).bind fun a => ?_
  refine (lift index.expectInt).bind fun i => ?_
  refine (toList a).bind fun items => ?_
  refine (lift (ArrayRef.checkIndex i items.length)).bind fun place => ?_
  exact pure (items[place]?.getD a.elem.default)

/-- An element is written to an array, and to no record. -/
theorem setElement (array index v : Value) : OnArrays (array.setElement index v) := by
  refine (lift array.expectArray).bind fun a => ?_
  refine (lift index.expectInt).bind fun i => ?_
  have hset : OnArrays (a.set i v) := by
    refine (toList a).bind fun items => ?_
    refine (lift (ArrayRef.checkIndex i items.length)).bind fun place => ?_
    exact update fun w => rfl
  exact hset.bind fun _ => pure Value.unit

/-- A copy of an array is one more array. -/
theorem arrayCopyOf (array length : Value) : OnArrays (array.arrayCopyOf length) := by
  refine (lift length.expectInt).bind fun n => ?_
  refine (lift (ArrayRef.checkLength n)).bind fun n => ?_
  refine (lift array.expectArray).bind fun a => ?_
  have hcopy : OnArrays (a.copyOf n) := by
    refine (toList a).bind fun items => ?_
    exact ofList a.elem (ArrayRef.resized a.elem items n)
  exact hcopy.bind fun copy => pure (Value.array copy)

/-- A field is read without a change. -/
theorem getField (record : Value) (s : Schema) (i : Nat) : OnArrays (record.getField s i) := by
  refine (lift (s.expectInstance record)).bind fun r => ?_
  refine world.bind fun w => ?_
  cases (w.fieldsOf r)[i]? with
  | some v => exact pure v
  | none => exact raise (r.noSuchField i)

/-- A column is taken out of its array without a change. -/
theorem columnAt (columns position : Value) (ty : Ty) :
    OnArrays (ColumnAccess.columnAt columns position ty) := by
  refine (getElement columns position).bind fun column => ?_
  exact lift (Conversion.checkDowncast column (.array ty))

/-- A field of a row is read from its column without a change. -/
theorem readField (columns index : Value) (f : Field × Nat) :
    OnArrays (ColumnAccess.readField columns index f) := by
  refine (columnAt columns (ColumnAccess.positionOf f) f.1.ty).bind fun column => ?_
  exact getElement column index

/-- The value of the field is read, and written to the column alone. -/
theorem writeField (s : Schema) (columns index record : Value) (f : Field × Nat) :
    OnArrays (ColumnAccess.writeField s columns index record f) := by
  refine (columnAt columns (ColumnAccess.positionOf f) f.1.ty).bind fun column => ?_
  refine (getField record s f.2).bind fun v => ?_
  exact (setElement column index v).bind fun _ => pure _

/-- A column is copied, and the copy takes its place among the columns. -/
theorem resizeField (columns capacity : Value) (f : Field × Nat) :
    OnArrays (ColumnAccess.resizeField columns capacity f) := by
  refine (columnAt columns (ColumnAccess.positionOf f) f.1.ty).bind fun column => ?_
  refine (arrayCopyOf column capacity).bind fun copy => ?_
  exact (setElement columns (ColumnAccess.positionOf f) copy).bind fun _ => pure _

/-- A call does what the handle computes, or is refused before anything is done. -/
theorem invoke {h : Handle} {types : List Ty} {ret : Ty} {z : List Value → Exec Value}
    (hh : h.Computes types ret z) (turns : Nat) {args : List Value} (hz : OnArrays (z args)) :
    OnArrays (h.invoke turns args) := by
  intro w w' hrun
  -- only arguments that fit reach what the handle computes
  by_cases hfits : Fits types args
  · rw [hh.invoke_apply hfits] at hrun
    exact hz w w' hrun
  · obtain ⟨e, he⟩ : ∃ e, h.invoke turns args w = .thrown e _ := hh.exists_invoke_thrown hfits
    rw [he] at hrun
    exact Option.some.inj hrun ▸ rfl

end Exec.OnArrays

/-! ## Lists and their factory -/

/-- What a run returns, if it returns, has a property. -/
def Exec.Returns (P : α → Prop) (x : Exec α) : Prop := ∀ w a w', x w = .ok a w' → P a

namespace Exec.Returns

variable {P : α → Prop}

/-- A result alone has the properties that it has. -/
theorem pure {a : α} (ha : P a) : Returns P (Pure.pure a) := fun _ _ _ h => by
  cases h
  exact ha

/-- A sequence returns what its rest returns of what the first part has returned. -/
theorem bind {Q : β → Prop} {x : Exec β} {f : β → Exec α} (hx : Returns Q x)
    (hf : ∀ b, Q b → Returns P (f b)) : Returns P (x >>= f) := by
  intro w a w' h
  rw [Exec.bind_apply] at h
  cases hrun : x w with
  | ok b w₁ =>
    rw [hrun] at h
    exact hf b (hx w b w₁ hrun) w₁ a w' h
  | thrown e w₁ =>
    rw [hrun] at h
    cases h
  | unfinished =>
    rw [hrun] at h
    cases h

/-- It makes no difference what is run first. -/
theorem after {x : Exec β} {f : β → Exec α} (hf : ∀ b, Returns P (f b)) : Returns P (x >>= f) :=
  bind (Q := fun _ => True) (fun _ _ _ _ => trivial) fun b _ => hf b

/-- What an attempt reports of a run that has returned has the property, too. -/
theorem attempt {x : Exec α} (hx : Returns P x) :
    Returns (fun | .ok a => P a | .error _ => True) x.attempt := by
  intro w a w' h
  unfold Exec.attempt at h
  cases hrun : x w with
  | ok b w₁ =>
    rw [hrun] at h
    cases h
    exact hx w b _ hrun
  | thrown e w₁ =>
    rw [hrun] at h
    cases h
    trivial
  | unfinished =>
    rw [hrun] at h
    cases h

end Exec.Returns

/-- A new list is of the factory that has made it. -/
theorem ColumnAccess.returns_newList (access : ColumnAccess) :
    access.newList.Returns (·.access = access) := .after fun _ => .after fun _ => .pure rfl

namespace ColumnList

variable (l : ColumnList)

/-- A list that grows stays with its factory. -/
theorem returns_reserve : l.reserve.Returns (·.access = l.access) := by
  unfold reserve
  split
  · exact .pure rfl
  · exact .after fun _ => .after fun _ => .pure rfl

/-- A list that is appended to stays with its factory, whether or not the record was appended. -/
theorem returns_push (v : Value) : (l.push v).Returns (·.1.access = l.access) := by
  refine .bind (returns_reserve l).attempt fun result hresult => ?_
  split
  · exact .pure rfl
  · refine .after fun written => ?_
    split
    · exact .pure hresult
    · exact .pure hresult

/-- What is read of a list is a record of the factory's schema. -/
theorem returns_get {l : ColumnList} {s : Schema} (h : l.access.Works s) (i : Nat) :
    (l.get i).Returns fun v => ∃ r, v = .record r ∧ r.schema = s := by
  have hinstantiate : ∀ values, (s.instantiate values).Returns
      fun v => ∃ r, v = .record r ∧ r.schema = s := by
    intro values w v w' hrun
    unfold Schema.instantiate at hrun
    cases hmismatch : s.mismatch? values with
    | none =>
      rw [hmismatch] at hrun
      cases hrun
      exact ⟨_, rfl, rfl⟩
    | some fault =>
      rw [hmismatch] at hrun
      cases hrun
  unfold get
  split
  · exact fun _ _ _ hrun => by cases hrun
  · refine .after fun index w v w' hrun => ?_
    -- the handle returns what `instantiate` does if its arguments fit, and nothing if they do not
    by_cases hfits : Fits [ColumnAccess.columnsTy, .int] [l.columns, .int index]
    · rw [h.read_computes.invoke_apply hfits] at hrun
      exact Exec.Returns.after hinstantiate w v w' hrun
    · obtain ⟨e, he⟩ : ∃ e, l.access.read.invoke 0 [l.columns, .int index] w = .thrown e _ :=
        h.read_computes.exists_invoke_thrown hfits
      rw [he] at hrun
      cases hrun

end ColumnList

namespace ColumnAccess.Works

open Exec (OnArrays)

variable {access : ColumnAccess} {s : Schema}

/-- A new list is an array of new arrays. -/
theorem onArrays_newList (access : ColumnAccess) : OnArrays access.newList := by
  have hcolumn (field : Field) : OnArrays (Value.array <$> ArrayRef.new field.ty 0) := by
    have hnew : OnArrays (ArrayRef.new field.ty 0) := .ofList field.ty (.replicate 0 _)
    exact hnew.bind fun column => .pure (Value.array column)
  refine (OnArrays.mapM hcolumn access.schema.fields).bind fun columns => ?_
  refine (OnArrays.ofList .any columns).bind fun array => ?_
  exact .pure _

/-- A list grows by copies of its columns. -/
theorem onArrays_reserve {l : ColumnList} (h : l.access.Works s) :
    OnArrays l.reserve := by
  unfold ColumnList.reserve
  split
  · exact .pure l
  · refine (OnArrays.lift (ColumnList.intIndex _)).bind fun capacity => ?_
    have hresize : OnArrays (l.access.resize.invoke 0 [l.columns, .int capacity]) := by
      refine OnArrays.invoke h.resize_computes 0 ?_
      refine (OnArrays.forM (fun _ => ?_) s.fields.zipIdx).bind fun _ => .pure _
      exact OnArrays.resizeField _ _ _
    exact hresize.bind fun _ => .pure _

/-- Appending reads the fields of a record and changes none. -/
theorem onArrays_push {l : ColumnList} (h : l.access.Works s) (v : Value) :
    OnArrays (l.push v) := by
  refine (onArrays_reserve h).attempt.bind_of_ok fun result w w' hresult => ?_
  split
  · exact .pure _
  · next l' =>
    have haccess : l'.access = l.access := (ColumnList.returns_reserve l).attempt w _ w' hresult
    have hworks : l'.access.Works s := haccess ▸ h
    have hwrite (i : Int32) : OnArrays (l'.access.write.invoke 0 [l'.columns, .int i, v]) := by
      refine OnArrays.invoke hworks.write_computes 0 ?_
      refine (OnArrays.forM (fun _ => ?_) s.fields.zipIdx).bind fun _ => .pure _
      exact OnArrays.writeField _ _ _ _ _
    have hwritten := (OnArrays.lift (ColumnList.intIndex l'.length)).bind hwrite
    refine hwritten.attempt.bind fun result => ?_
    split
    · exact .pure _
    · exact .pure _

end ColumnAccess.Works

/-! ## Reading lists -/

/-- What another run has left alone counts for nothing. -/
theorem World.RecordStep.congr {rs rs' : List Record} {w w₁ w' : World}
    (h : w₁.RecordStep rs w' rs') (hw : w₁.records = w.records) : w.RecordStep rs w' rs' := by
  cases h with
  | kept hrecords => exact .kept (hrecords.trans hw)
  | made s hvalues hrecords =>
    rw [hw] at hrecords ⊢
    exact .made s hvalues hrecords
  | wrote hr hv hrecords =>
    refine .wrote hr hv (hrecords.trans ?_)
    rw [World.setFields, World.setFields, World.fieldsOf_congr hw, hw]

/-- A run makes a step if nothing but what it does at its end can touch records. -/
theorem World.RecordStep.after {rs : List Record} {w w' : World} {x : Exec α} {f : α → Exec Value}
    -- where the first run has ended, only the rest can have touched records
    (hx : x.OnArrays)
    (hf : ∀ a w₁, (f a w₁).world? = some w' → w₁.RecordStep rs w' (rs ++ (f a w₁).records))
    (hrun : ((x >>= f) w).world? = some w') :
    w.RecordStep rs w' (rs ++ ((x >>= f) w).records) := by
  rw [Exec.bind_apply] at hrun ⊢
  have hfirst := hx w
  cases hxw : x w with
  | ok a w₁ =>
    rw [hxw] at hrun hfirst
    exact (hf a w₁ hrun).congr (hfirst w₁ rfl).records_eq
  | thrown e w₁ =>
    rw [hxw] at hrun hfirst
    obtain rfl := Option.some.inj hrun
    rw [Outcome.records_thrown, List.append_nil]
    exact .kept (hfirst w₁ rfl).records_eq
  | unfinished =>
    rw [hxw] at hrun
    cases hrun

/-- Reading a list makes a record of values that the fields admit, or none. -/
theorem ColumnList.recordStep_get {l : ColumnList} {s : Schema} (h : l.access.Works s)
    (rs : List Record) {w w' : World} {i : Nat} (hrun : (l.get i w).world? = some w') :
    w.RecordStep rs w' (rs ++ (l.get i w).records) := by
  unfold get at hrun ⊢
  split at hrun
  · next hi =>
    rw [if_pos hi]
    exact (Exec.Steps.raise _ w' hrun).1
  · next hi =>
    rw [if_neg hi]
    refine .after (.lift _) (fun index w₁ hrun => ?_) hrun
    by_cases hfits : Fits [ColumnAccess.columnsTy, .int] [l.columns, .int index]
    · rw [h.read_computes.invoke_apply hfits] at hrun ⊢
      exact .after (.mapM (fun _ => .readField _ _ _) _)
        (fun values w₂ hrun => (Exec.Steps.instantiate s values w' hrun).1) hrun
    · obtain ⟨e, he⟩ : ∃ e, l.access.read.invoke 0 [l.columns, .int index] w₁ = .thrown e _ :=
        h.read_computes.exists_invoke_thrown hfits
      rw [he] at hrun ⊢
      obtain rfl := Option.some.inj hrun
      rw [Outcome.records_thrown, List.append_nil]
      exact .kept rfl

/-! ## Courses -/

/-- Calls that make records and write to fields, given the records that there are. What may be
written by position is said apart. -/
inductive RecordCall (allowed : Record → Nat → Value → Prop) (rs : List Record) : Exec Value → Prop
  | instantiate (s : Schema) (values : List Value) : RecordCall allowed rs (s.instantiate values)
  | instantiateDefault (s : Schema) : RecordCall allowed rs s.instantiateDefault
  | set {r : Record} {index : Nat} {v : Value} (hr : r ∈ rs) (hallowed : allowed r index v) :
      RecordCall allowed rs (do
        r.set index v
        return .unit)
  | newInstance {s : Schema} {args : List Expr} {c : Closure} {turns : Nat} {values : List Value}
      (hc : Closure.newInstance s args = .ok c) (hargs : ∀ e ∈ args, e.Plain rs)
      (hvalues : ∀ v ∈ values, v.KnownTo rs) : RecordCall allowed rs (c.invoke turns values)
  | setField {s : Schema} {name : String} {object value : Expr} {c : Closure} {turns : Nat}
      {values : List Value} (hc : Closure.setField s name object value = .ok c)
      (hobject : object.Plain rs) (hvalue : value.Plain rs)
      (hvalues : ∀ v ∈ values, v.KnownTo rs) : RecordCall allowed rs (c.invoke turns values)

/-- Every call makes a step if what it writes by position is admitted. -/
theorem RecordCall.steps {rs : List Record} {x : Exec Value}
    (h : RecordCall Record.Admits rs x) (w : World) : Exec.Steps rs w x := by
  cases h with
  | instantiate s values => exact .instantiate s values
  | instantiateDefault s => exact .instantiateDefault s
  | set hr hallowed => exact .set hr hallowed
  | newInstance hc hargs hvalues => exact Closure.steps_newInstance hc hargs _ hvalues
  | setField hc hobject hvalue hvalues =>
    exact Closure.steps_setField hc hobject hvalue _ hvalues

/-- What a world, the records that have been made and the lists of a factory can come to be. -/
inductive ColumnAccess.Populates (allowed : Record → Nat → Value → Prop) (access : ColumnAccess) :
    World → List Record → ColumnLists → Prop
  | start {w : World} (hnone : w.records = #[]) : Populates allowed access w [] []
  | called {w w' : World} {rs : List Record} {lists : ColumnLists} {x : Exec Value}
      (h : Populates allowed access w rs lists) (hx : RecordCall allowed rs x)
      (hrun : (x w).world? = some w') :
      Populates allowed access w' (rs ++ (x w).records) lists
  | created {w w' : World} {rs : List Record} {lists : ColumnLists} {l : ColumnList}
      (h : Populates allowed access w rs lists) (hrun : access.newList w = .ok l w') :
      Populates allowed access w' rs (lists ++ [(l, [])])
  | pushed {w w' : World} {rs : List Record} {lists : ColumnLists} {k : Nat} {l l' : ColumnList}
      {rows : List (List Value)} {v : Value} {failure : Option Exception}
      (h : Populates allowed access w rs lists) (hk : lists[k]? = some (l, rows))
      (hv : v.KnownTo rs) (hrun : l.push v w = .ok (l', failure) w') :
      Populates allowed access w' rs
        (lists.set k (l', ColumnList.rowsAfter rows (v.fieldsIn w) failure))
  | read {w w' : World} {rs : List Record} {lists : ColumnLists} {k i : Nat} {l : ColumnList}
      {rows : List (List Value)} (h : Populates allowed access w rs lists)
      (hk : lists[k]? = some (l, rows)) (hrun : (l.get i w).world? = some w') :
      Populates allowed access w' (rs ++ (l.get i w).records) lists
  /-- Anything that leaves alone all records and the arrays of the lists. -/
  | elsewhere {w w' : World} {rs : List Record} {lists : ColumnLists}
      (h : Populates allowed access w rs lists) (hrecords : w'.records = w.records)
      (hkept : ∀ p ∈ lists, ∀ a, p.1.Owns w a → w'.arrays[a]? = w.arrays[a]?) :
      Populates allowed access w' rs lists

namespace ColumnAccess.Populates

variable {access : ColumnAccess} {s : Schema} {w : World} {rs : List Record} {lists : ColumnLists}

/-- All records are well typed, and the lists are lists of rows. -/
theorem typed (hworks : access.Works s) (h : access.Populates Record.Admits w rs lists) :
    w.Typed rs ∧ access.Reaches w lists ∧ ∀ p ∈ lists, p.1.access = access := by
  induction h with
  | @start w hnone => exact ⟨.start hnone, .start w, nofun⟩
  | called _ hx hrun ih =>
    obtain ⟨htyped, hreaches, haccess⟩ := ih
    obtain ⟨hstep, harrays⟩ := hx.steps _ _ hrun
    exact ⟨htyped.step hstep, hreaches.changed fun _ _ _ _ => by rw [harrays], haccess⟩
  | created _ hrun ih =>
    obtain ⟨htyped, hreaches, haccess⟩ := ih
    refine ⟨htyped.step (.kept ?_), hreaches.created hrun, List.forall_mem_append.2
      ⟨haccess, List.forall_mem_singleton.2 (access.returns_newList _ _ _ hrun)⟩⟩
    exact (Works.onArrays_newList access _ _ (by rw [hrun]; rfl)).records_eq
  | @pushed w w' rs lists k l l' rows v failure _ hk hv hrun ih =>
    obtain ⟨htyped, hreaches, haccess⟩ := ih
    have hl := haccess _ (List.mem_of_getElem? hk)
    -- pushing trusts the fields of any record of the schema
    have htrusts : access.schema.Trusts w v := by
      intro hinstance
      obtain ⟨r, rfl, hr⟩ := Schema.exists_record_of_isInstance hinstance
      exact hr ▸ htyped.typed r (hv r rfl)
    refine ⟨htyped.step (.kept ?_), hreaches.pushed hk htrusts hrun, fun p hp => ?_⟩
    · have hworksl : l.access.Works s := hl ▸ hworks
      exact (Works.onArrays_push hworksl v _ _ (by rw [hrun]; rfl)).records_eq
    · obtain hp | rfl := List.mem_or_eq_of_mem_set hp
      · exact haccess p hp
      · exact (l.returns_push v _ _ _ hrun).trans hl
  | @read w w' rs lists k i l rows _ hk hrun ih =>
    obtain ⟨htyped, hreaches, haccess⟩ := ih
    have hl : l.access.Works s := haccess _ (List.mem_of_getElem? hk) ▸ hworks
    refine ⟨htyped.step (ColumnList.recordStep_get hl rs hrun), ?_, haccess⟩
    refine hreaches.read (i := i) hk ?_
    cases hget : l.get i w with
    | ok v w₁ =>
      rw [hget] at hrun
      exact .inl ⟨v, Option.some.inj hrun ▸ rfl⟩
    | thrown e w₁ =>
      rw [hget] at hrun
      exact .inr ⟨e, Option.some.inj hrun ▸ rfl⟩
    | unfinished =>
      rw [hget] at hrun
      cases hrun
  | elsewhere _ hrecords hkept ih =>
    obtain ⟨htyped, hreaches, haccess⟩ := ih
    exact ⟨htyped.step (.kept hrecords), hreaches.changed hkept, haccess⟩

end ColumnAccess.Populates

/-- What is read of records and lists is of the fields' types, and writing by position keeps all
records well typed for admitted values only. -/
structure ColumnAccess.Sound (s : Schema) (w : World) (rs : List Record) (lists : ColumnLists) :
    Prop where
  typed : w.Typed rs
  admits_get : ∀ r ∈ rs, ∀ index v w', r.get index w = .ok v w' → r.Admits index v
  admits_getField : ∀ (t : Schema) name object c index field turns values v w',
    Closure.getField t name object = .ok c → t.field name = .ok (index, field) →
    object.Plain rs → (∀ v ∈ values, v.KnownTo rs) → c.invoke turns values w = .ok v w' →
    field.ty.admits v = true
  typed_set_iff : ∀ r ∈ rs, ∀ index v w', r.set index v w = .ok () w' →
    (w'.Typed rs ↔ r.Admits index v)
  typed_listed : ∀ l rows, (l, rows) ∈ lists → ∀ i v w', l.get i w = .ok v w' →
    ∃ r, v = .record r ∧ r.schema = s ∧ r.Typed w'
  /-- Reading does not fail for the type of a value. -/
  exists_listed : s.fields ≠ [] → ∀ l rows, (l, rows) ∈ lists → ∀ i < l.length,
    ∃ v w', l.get i w = .ok v w'

/-- Nothing that is read, of a record or of a list, is of another type than its field, whatever has
been done to records and lists, unless a field has been written by its position with a value that
its type does not admit. -/
theorem ColumnAccess.records_stay_typed (s : Schema) (σ : Supply) :
    ∃ access σ', Gives (compose s) σ access σ' ∧
      ∀ w rs lists, access.Populates Record.Admits w rs lists → Sound s w rs lists := by
  obtain ⟨access, σ', hgives, hworks⟩ := exists_compose s σ
  refine ⟨access, σ', hgives, fun w rs lists hpopulates => ?_⟩
  obtain ⟨htyped, hreaches, haccess⟩ := hpopulates.typed hworks
  constructor
  case typed => exact htyped
  case admits_get =>
    exact fun r hr index v w' hrun =>
      (htyped.typed r hr).admits_of_getElem? (Record.getElem?_of_get_eq_ok hrun)
  case admits_getField =>
    exact fun t name object c index field turns values v w' hc hfield hobject hvalues hrun =>
      Closure.admits_of_getField hc hfield hobject turns hvalues htyped hrun
  case typed_set_iff => exact fun r hr index v w' hrun => htyped.set_iff hr hrun
  case typed_listed =>
    intro l rows hl i v w' hrun
    have hworksl : l.access.Works s := haccess _ hl ▸ hworks
    obtain ⟨r, rfl, hr⟩ := ColumnList.returns_get hworksl i w v w' hrun
    have hworld : (l.get i w).world? = some w' := by rw [hrun]; rfl
    have hstep := ColumnList.recordStep_get hworksl rs hworld
    rw [hrun] at hstep
    exact ⟨r, rfl, hr, (htyped.step hstep).typed r (List.mem_append_right _ List.mem_cons_self)⟩
  case exists_listed =>
    intro hfields l rows hl i hi
    -- lists of more columns than there are positions stay empty
    rcases Nat.lt_or_ge (0x80000000) s.fields.length with hwide | hbound
    · obtain ⟨hstuck, -⟩ := hreaches.stuck hworks hwide (l, rows) hl
      rw [hstuck.length_eq] at hi
      exact absurd hi (Nat.not_lt_zero i)
    · obtain ⟨store, hseparate⟩ := hreaches.exists_separate hworks hbound hfields
      obtain ⟨k, hk⟩ := List.mem_iff_getElem?.1 hl
      have hholds := hseparate.holds hk
      rw [hholds.length_eq] at hi
      exact ⟨_, _, hholds.get_apply hbound (List.getElem?_eq_getElem hi)⟩

/-- A record is made and written to, and then a list. -/
theorem ColumnAccess.records_stay_typed_of_point :
    ∃ (s : Schema) (access : ColumnAccess) (σ : Supply) (l : ColumnList) (w : World),
      s.fields = [⟨"x", .int⟩] ∧ Gives (compose s) {} access σ ∧
      access.newList { records := #[[.int 2]] } = .ok l w ∧ Sound s w [⟨s, 0⟩] [(l, [])] ∧
      (⟨s, 0⟩ : Record).get 0 w = .ok (.int 2) w := by
  let s : Schema := ⟨0, "Point", [⟨"x", .int⟩], by decide, by decide⟩
  obtain ⟨access, σ, hgives, hsound⟩ := records_stay_typed s {}
  have hmade : access.Populates Record.Admits { records := #[[.int 1]] } [⟨s, 0⟩] [] :=
    (Populates.start (w := {}) rfl).called (.instantiate s [.int 1]) rfl
  have hwrite : RecordCall Record.Admits [⟨s, 0⟩] (do
      (⟨s, 0⟩ : Record).set 0 (.int 2)
      return .unit) := by
    refine .set (List.mem_singleton.2 rfl) fun field hfield => ?_
    obtain rfl := Option.some.inj hfield
    rfl
  have hwrote : access.Populates Record.Admits { records := #[[.int 2]] } [⟨s, 0⟩] [] :=
    hmade.called hwrite rfl
  obtain ⟨access', σ', hgives', hworks⟩ := exists_compose s {}
  obtain ⟨rfl, rfl⟩ := hgives.unique hgives'
  obtain ⟨l, w, -, hrun, -⟩ := hworks.exists_newList { records := #[[.int 2]] }
  have hrecords : w.records = #[[.int 2]] :=
    (Works.onArrays_newList access { records := #[[.int 2]] } w (by rw [hrun]; rfl)).records_eq
  have hfields : (w.fieldsOf ⟨s, 0⟩)[0]? = some (.int 2) := by
    rw [World.fieldsOf, hrecords]
    rfl
  refine ⟨s, access, σ, l, w, rfl, hgives, hrun, hsound _ _ _ (hwrote.created hrun), ?_⟩
  rw [Record.get, Exec.bind_of_ok (rfl : Exec.world w = .ok w w), hfields]
  rfl

/-- Writing by position checks the position only. A text gets into an integer field, and comes out
of the closure that reads it. -/
theorem Record.set_ignores_types :
    let s : Schema := ⟨0, "P", [⟨"a", .int⟩], by decide, by decide⟩
    let w : World := { records := #[[.str 0 "x"]] }
    (∀ access, ColumnAccess.Populates (fun _ _ _ => True) access w [⟨s, 0⟩] []) ∧
      ¬ w.Typed [⟨s, 0⟩] ∧
      ∃ c, Closure.getField s "a" (.var ⟨1, 0, true, s.ty⟩) = .ok c ∧ c.ty = .int ∧
        c.invoke 0 [.record ⟨s, 0⟩] w = .ok (.str 0 "x") w := by
  intro s w
  refine ⟨fun access => ?_, fun htyped => ?_, _, rfl, rfl, rfl⟩
  · have hstart : ColumnAccess.Populates (fun _ _ _ => True) access {} [] [] := .start rfl
    have hmade : ColumnAccess.Populates (fun _ _ _ => True) access { records := #[[.int 1]] }
        [⟨s, 0⟩] [] := hstart.called (.instantiate s [.int 1]) rfl
    have hwrite : RecordCall (fun _ _ _ => True) [⟨s, 0⟩] (do
        (⟨s, 0⟩ : Record).set 0 (.str 0 "x")
        return .unit) := .set (List.mem_singleton.2 rfl) trivial
    exact hmade.called hwrite rfl
  · exact absurd (htyped.typed _ (List.mem_singleton.2 rfl)) (by decide)

end Splice
