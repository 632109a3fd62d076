import Splice.Fieldwise.Columns
import Splice.Proofs.Scope.Program

/-!
# Access to columns

The handles that read, write and resize columns are composed of a few statements for each field. The
main statement is that they are composed for every schema and do what loops over the fields do,
which say the same without variables and statements.
-/

namespace Splice.ColumnAccess

open Compose (Gives)
open Scoped (Means Returns)
open Handle (argument)

/-! ## Loops over the fields -/

/-- The column at a position, as an array of a type. -/
def columnAt (columns position : Value) (ty : Ty) : Exec Value := do
  Conversion.checkDowncast (← columns.getElement position) (.array ty)

/-- The position of a field, as a value. -/
def positionOf (f : Field × Nat) : Value := .int (Int32.ofNat f.2)

/-- The element of a field's column at an index. -/
def readField (columns index : Value) (f : Field × Nat) : Exec Value := do
  (← columnAt columns (positionOf f) f.1.ty).getElement index

/-- A new record of the elements at an index. -/
def readRecord (s : Schema) (columns index : Value) : Exec Value := do
  s.instantiate (← s.fields.zipIdx.mapM (readField columns index))

/-- Writes a field of a record to its column. -/
def writeField (s : Schema) (columns index record : Value) (f : Field × Nat) : Exec PUnit := do
  let array ← columnAt columns (positionOf f) f.1.ty
  let value ← record.getField s f.2
  let _ ← array.setElement index value

/-- Replaces a field's column by a copy of another length. -/
def resizeField (columns capacity : Value) (f : Field × Nat) : Exec PUnit := do
  let array ← columnAt columns (positionOf f) f.1.ty
  let resized ← array.arrayCopyOf capacity
  let _ ← columns.setElement (positionOf f) resized

/-! ## Steps for a field -/

variable {s : Schema} {known : List Var} {columns index record capacity : Var}

/-- The position of a field is a constant of the composed operation. -/
theorem means_positionVar (known : List Var) (f : Field × Nat) :
    Means known (positionVar f.2) (fun _ => return positionOf f) (·.ty = .int) := by
  have hint : Ty.int ≠ .void := by decide
  obtain ⟨c, hc, hcomputes⟩ := Closure.exists_constant (v := positionOf f) hint rfl
  exact .lift_bind hc (.assign (hcomputes.weaken (List.nil_subset _)) hint)

/-- The column of a field is what stands at its position, cast to an array of its type. -/
theorem means_column {position : Var} (hknown : [columns, position] ⊆ known)
    (hcolumns : columns.ty = columnsTy) (hposition : position.ty = .int) (ty : Ty) :
    Means known (column columns position ty)
      (fun env => columnAt (env columns) (env position) ty) (·.ty = .array ty) := by
  obtain ⟨c, hc, hcomputes⟩ := Closure.exists_getElement hcolumns hposition
  -- the array of columns is erased, so a column is checked when it is taken out
  have hbetween : Conversion.between? .any (.array ty) = some (.downcast (.array ty)) := by
    simp [Conversion.between?, Ty.isNumeric]
  obtain ⟨d, hd, hcast⟩ := hcomputes.exists_cast hbetween
  exact .lift_bind hc (.lift_bind hd (.assign (hcast.weaken hknown) (by simp)))

/-- The steps for a field go on from its position and its column. -/
theorem means_atColumn [Denotes γ δ] {known : List Var} {next : Var → Var → Scoped γ}
    {y : Env → Value → Value → Exec δ} {fits : γ → Prop} (hknown : columns ∈ known)
    (hcolumns : columns.ty = columnsTy) (f : Field × Nat)
    (hnext : ∀ p a, p.ty = .int → a.ty = .array f.1.ty →
      Means (known ++ [p] ++ [a]) (next p a) (fun env => y env (env p) (env a)) fits)
    (hlooks : ∀ env env', Env.Agree known env env' → y env' = y env) :
    Means known (do
        let position ← positionVar f.2
        let array ← column columns position f.1.ty
        next position array)
      (fun env => do y env (positionOf f) (← columnAt (env columns) (positionOf f) f.1.ty))
      fits := by
  refine Means.bind (α := Var) (γ := γ)
    (y := fun env p => do y env p (← columnAt (env columns) p f.1.ty))
    (means_positionVar _ f) (fun p hp => ?_) fun env env' hagree => ?_
  · refine Means.bind (α := Var) (γ := γ) (y := fun env a => y env (env p) a)
      (means_column ?_ hcolumns hp f.1.ty) (fun a ha => hnext p a hp ha) fun env env' hagree => ?_
    · exact List.cons_subset.2 ⟨List.mem_append_left _ hknown, List.subset_append_right _ _⟩
    · rw [hlooks env env' fun v hv => hagree v (List.mem_append_left _ hv),
        hagree p List.mem_concat_self]
  · rw [hagree columns hknown, hlooks env env' hagree]

/-- The steps that read a field come to reading it from its column. -/
theorem means_readField (hcolumns : columns.ty = columnsTy) (hindex : index.ty = .int)
    (f : Field × Nat) (hf : f.1.ty ≠ .void) :
    Means [columns, index] (do
        let array ← column columns (← positionVar f.2) f.1.ty
        Scoped.assign (← Closure.getElement array index))
      (fun env => readField (env columns) (env index) f) (·.ty = f.1.ty) := by
  refine means_atColumn (γ := Var) (y := fun env _ a => a.getElement (env index))
    List.mem_cons_self hcolumns f (fun p a _ ha => ?_) fun env env' hagree => ?_
  · obtain ⟨c, hc, hcomputes⟩ := Closure.exists_getElement ha hindex
    exact .lift_bind hc (.assign (hcomputes.weaken (by simp)) hf)
  · rw [hagree index (by simp)]

/-- The steps that write a field come to reading it from the record and writing it to its column. -/
theorem means_writeField (hcolumns : columns.ty = columnsTy) (hindex : index.ty = .int)
    (hrecord : record.ty = s.ty) (f : Field × Nat) (hf : s.fields[f.2]? = some f.1) :
    Means [columns, index, record] (do
        let array ← column columns (← positionVar f.2) f.1.ty
        let value ← Scoped.assign (← Closure.getField s f.1.name record)
        let _ ← Scoped.assign (← Closure.setElement array index value))
      (fun env => writeField s (env columns) (env index) (env record) f) fun _ => True := by
  have hty : f.1.ty ≠ .void := s.noVoid _ (List.mem_of_getElem? hf)
  refine means_atColumn (γ := PUnit) (y := fun env _ a => do
      let v ← (env record).getField s f.2
      let _ ← a.setElement (env index) v)
    List.mem_cons_self hcolumns f (fun p a _ ha => ?_) fun env env' hagree => ?_
  · obtain ⟨c, hc, hgets⟩ := Closure.exists_getField hf hrecord
    refine .lift_bind hc (Means.bind (α := Var) (γ := PUnit)
      (y := fun env v => do let _ ← (env a).setElement (env index) v)
      (.assign (hgets.weaken (by simp)) hty) (fun v hv => ?_) fun env env' hagree => ?_)
    · obtain ⟨d, hd, hsets⟩ := Closure.exists_setElement ha hindex hv hty
      exact .lift_bind hd (.perform (hsets.weaken (by simp [Denotes.vars])))
    · rw [hagree index (by simp), hagree a (by simp)]
  · rw [hagree index (by simp), hagree record (by simp)]

/-- The steps that resize a column come to replacing it by its copy. -/
theorem means_resizeField (hcolumns : columns.ty = columnsTy) (hcapacity : capacity.ty = .int)
    (f : Field × Nat) :
    Means [columns, capacity] (do
        let position ← positionVar f.2
        let array ← column columns position f.1.ty
        let resized ← Scoped.assign (← (← Closure.arrayCopyOf array capacity).cast .any)
        let _ ← Scoped.assign (← Closure.setElement columns position resized))
      (fun env => resizeField (env columns) (env capacity) f) fun _ => True := by
  refine means_atColumn (γ := PUnit) (y := fun env p a => do
      let v ← a.arrayCopyOf (env capacity)
      let _ ← (env columns).setElement p v)
    List.mem_cons_self hcolumns f (fun p a hp ha => ?_) fun env env' hagree => ?_
  · obtain ⟨c, hc, hcopies⟩ := Closure.exists_arrayCopyOf ha hcapacity
    have hbetween : Conversion.between? (.array f.1.ty) .any = some .identity := by
      simp [Conversion.between?, Ty.isNumeric]
    obtain ⟨d, hd, hcast⟩ := hcopies.exists_cast hbetween
    -- nothing is converted on the way to the erased type
    have hresized : d.Computes [a, capacity] .any fun env =>
        (env a).arrayCopyOf (env capacity) := hcast.congr fun env => bind_pure _
    refine .lift_bind hc (.lift_bind hd (Means.bind (α := Var) (γ := PUnit)
      (y := fun env v => do let _ ← (env columns).setElement (env p) v)
      (.assign (hresized.weaken (by simp)) (by decide)) (fun v hv => ?_)
      fun env env' hagree => ?_))
    · obtain ⟨e, he, hsets⟩ := Closure.exists_setElement hcolumns hp hv (by simp)
      exact .lift_bind he (.perform (hsets.weaken (by simp [Denotes.vars])))
    · rw [hagree columns (by simp), hagree p (by simp)]
  · rw [hagree capacity (by simp), hagree columns (by simp)]

/-! ## Handles -/

/-- A field that is found with a position stands there. -/
theorem getElem?_of_mem_zipIdx {f : Field × Nat} (hf : f ∈ s.fields.zipIdx) :
    s.fields[f.2]? = some f.1 := List.mem_zipIdx_iff_getElem?.1 hf

/-- The handle that reads is composed for every schema. -/
theorem exists_composeRead (s : Schema) (σ : Supply) :
    ∃ h σ', Gives (composeRead s) σ h σ' ∧
      h.Computes [columnsTy, .int] s.ty fun args =>
        readRecord s (argument args 0) (argument args 1) := by
  refine Scoped.exists_function (.addParam (by decide) fun columns hcolumns =>
    .addParam (by decide) fun index hindex => ?_) σ
  have htypes : [columns, index].map Var.ty = [columnsTy, .int] := by simp [hcolumns, hindex]
  rw [← htypes]
  refine Means.returns (α := List Var) (y := s.instantiate)
    (Means.mapM (x := fun env => readField (env columns) (env index))
      (fun f hf => means_readField hcolumns hindex f (s.noVoid _ (List.fst_mem_of_mem_zipIdx hf)))
      fun env env' hagree => ?_)
    (fun values hvalues => ?_) fun env => ?_
  · rw [hagree columns (by simp), hagree index (by simp)]
  · -- the elements are of the types of the fields, so a record can be made of them
    refine Closure.exists_newInstance (hvalues.trans ?_)
    change s.fields.zipIdx.map (Field.ty ∘ Prod.fst) = _
    rw [← List.map_map, List.zipIdx_map_fst]
    rfl
  · simp [Schema.ty]
    rfl

/-- The handle that writes is composed for every schema. -/
theorem exists_composeWrite (s : Schema) (σ : Supply) :
    ∃ h σ', Gives (composeWrite s) σ h σ' ∧
      h.Computes [columnsTy, .int, s.ty] .void fun args => (do
        s.fields.zipIdx.forM (writeField s (argument args 0) (argument args 1) (argument args 2))
        return .unit) := by
  refine Scoped.exists_function (.addParam (by decide) fun columns hcolumns =>
    .addParam (by decide) fun index hindex => .addParam s.ty_ne_void fun record hrecord => ?_) σ
  have htypes : [columns, index, record].map Var.ty = [columnsTy, .int, s.ty] := by
    simp [hcolumns, hindex, hrecord]
  rw [← htypes]
  obtain ⟨c, hc, hty, hargs, heval⟩ := Closure.exists_constantVoid
  refine Means.returns (α := PUnit) (y := fun _ => return .unit)
    (Means.forM (x := fun env => writeField s (env columns) (env index) (env record))
      (fun f hf => ?_) fun env env' hagree => ?_)
    (fun _ _ => ⟨c, hc, ?_, hty, heval⟩) fun env => rfl
  · exact means_writeField hcolumns hindex hrecord f (getElem?_of_mem_zipIdx hf)
  · rw [hagree columns (by simp), hagree index (by simp), hagree record (by simp)]
  · simp [hargs]

/-- The handle that resizes is composed for every schema. -/
theorem exists_composeResize (s : Schema) (σ : Supply) :
    ∃ h σ', Gives (composeResize s) σ h σ' ∧
      h.Computes [columnsTy, .int] .void fun args => (do
        s.fields.zipIdx.forM (resizeField (argument args 0) (argument args 1))
        return .unit) := by
  refine Scoped.exists_function (.addParam (by decide) fun columns hcolumns =>
    .addParam (by decide) fun capacity hcapacity => ?_) σ
  have htypes : [columns, capacity].map Var.ty = [columnsTy, .int] := by
    simp [hcolumns, hcapacity]
  rw [← htypes]
  obtain ⟨c, hc, hty, hargs, heval⟩ := Closure.exists_constantVoid
  refine Means.returns (α := PUnit) (y := fun _ => return .unit)
    (Means.forM (x := fun env => resizeField (env columns) (env capacity))
      (fun f _ => ?_) fun env env' hagree => ?_)
    (fun _ _ => ⟨c, hc, ?_, hty, heval⟩) fun env => rfl
  · exact means_resizeField hcolumns hcapacity f
  · rw [hagree columns (by simp), hagree capacity (by simp)]
  · simp [hargs]

/-- The operations of a schema read, write and resize the columns of its fields, one field after the
other in declaration order. -/
structure Works (access : ColumnAccess) (s : Schema) : Prop where
  schema_eq : access.schema = s
  read_computes : access.read.Computes [columnsTy, .int] s.ty fun args =>
    readRecord s (argument args 0) (argument args 1)
  write_computes : access.write.Computes [columnsTy, .int, s.ty] .void fun args => (do
    s.fields.zipIdx.forM (writeField s (argument args 0) (argument args 1) (argument args 2))
    return .unit)
  resize_computes : access.resize.Computes [columnsTy, .int] .void fun args => (do
    s.fields.zipIdx.forM (resizeField (argument args 0) (argument args 1))
    return .unit)

/-- The operations are composed for every schema. -/
theorem exists_compose (s : Schema) (σ : Supply) :
    ∃ access σ', Gives (compose s) σ access σ' ∧ access.Works s := by
  obtain ⟨read, σ₁, hread, hreads⟩ := exists_composeRead s σ
  obtain ⟨write, σ₂, hwrite, hwrites⟩ := exists_composeWrite s σ₁
  obtain ⟨resize, σ₃, hresize, hresizes⟩ := exists_composeResize s σ₂
  refine ⟨⟨s, read, write, resize⟩, σ₃, ?_, rfl, hreads, hwrites, hresizes⟩
  exact hread.bind_iff.2 <| hwrite.bind_iff.2 <| hresize.bind_iff.2 <|
    Compose.gives_pure_iff.2 ⟨rfl, rfl⟩

end Splice.ColumnAccess
