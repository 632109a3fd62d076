import Splice.Proofs.Store.Course
import Splice.Proofs.Store.TypedRecords

/-!
# Records as a store

Records are created from schemas, and their fields are read and written by composed closures, which
have resolved the names of the fields to positions, or directly by position. The static type of a
record is the name of its schema, so that a record of another schema of this name can come where one
is needed; whether it is one of the very schema is checked when the operation runs. A run has done
what it says or nothing but throw, and from the history of what was done the outcome of every later
operation is known. `Closure.records_are_stores` says so of all courses of operations.
-/

namespace Splice

/-- The world with one more record. -/
def World.addRecord (w : World) (values : List Value) : World :=
  { w with records := w.records.push values }

/-- The operations on records, with something in the place of each operand. Fields are accessed
through a schema or directly. -/
inductive RecordOp (α : Type) where
  | create (s : Schema) (values : List α)
  | createDefault (s : Schema)
  | getField (s : Schema) (position : Nat) (record : α)
  | setField (s : Schema) (position : Nat) (record value : α)
  | get (record : α) (index : Nat)
  | set (record : α) (index : Nat) (value : α)

namespace RecordOp

/-- The operation on values. -/
def run : RecordOp Value → Exec Value
  | create s values => s.instantiate values
  | createDefault s => s.instantiateDefault
  | getField s i record => record.getField s i
  | setField s i record v => record.setField s i v
  | get record i => do (← record.expectRecord).get i
  | set record i v => do
    (← record.expectRecord).set i v
    return .unit

/-- The closure of an operation on operands. Fields are resolved by their names. Direct accesses are
not composed. -/
inductive Composes : RecordOp Expr → Closure → Prop
  | create {s : Schema} {values : List Expr} {c : Closure}
      (hc : Closure.newInstance s values = .ok c) : Composes (create s values) c
  | getField {s : Schema} {i : Nat} {field : Field} {record : Expr} {c : Closure}
      (hfield : s.fields[i]? = some field) (hc : Closure.getField s field.name record = .ok c) :
      Composes (getField s i record) c
  | setField {s : Schema} {i : Nat} {field : Field} {record value : Expr} {c : Closure}
      (hfield : s.fields[i]? = some field)
      (hc : Closure.setField s field.name record value = .ok c) :
      Composes (setField s i record value) c

def operands : RecordOp α → List α
  | create _ values => values
  | createDefault _ => []
  | getField _ _ record => [record]
  | setField _ _ record value => [record, value]
  | get record _ => [record]
  | set record _ value => [record, value]

/-- Runs something for each operand, from left to right. -/
def mapM (f : α → Exec β) : RecordOp α → Exec (RecordOp β)
  | create s values => return create s (← values.mapM f)
  | createDefault s => return createDefault s
  | getField s i record => return getField s i (← f record)
  | setField s i record value => return setField s i (← f record) (← f value)
  | get record i => return get (← f record) i
  | set record i value => return set (← f record) i (← f value)

/-- The operands are of the types that the composed operation needs. -/
def WellTyped : RecordOp Expr → Prop
  | create s values => values.map Expr.ty = s.fieldTypes
  | getField s i record => i < s.fields.length ∧ record.ty = s.ty
  | setField s i record value => s.fieldTypes[i]? = some value.ty ∧ record.ty = s.ty
  | _ => False

/-- New values are those of a schema's fields, the operands are records of the very schema that is
accessed, and no position lies outside its record. -/
def Valid (lengthOf : Nat → Nat) : RecordOp Value → Prop
  | create s values => Fits s.fieldTypes values
  | createDefault _ => True
  | getField s i (.record r) => r.schema = s ∧ i < lengthOf r.addr
  | setField s i (.record r) _ => r.schema = s ∧ i < lengthOf r.addr
  | get (.record r) i => i < lengthOf r.addr
  | set (.record r) i _ => i < lengthOf r.addr
  | _ => False

/-- What an operation that has returned adds to the history of all records. -/
def recorded : RecordOp Value → (result : Value) → StoreHistory
  | create _ values, .record r => [.made r.addr values]
  | createDefault s, .record r => [.made r.addr (s.fieldTypes.map Ty.default)]
  | setField _ i (.record r) v, _ => [.wrote r.addr i v]
  | set (.record r) i v, _ => [.wrote r.addr i v]
  | _, _ => []

/-- The record that an operation has created by a schema, if it has created one. -/
def created : RecordOp Value → (result : Value) → List Record
  | create s _, .record r => [⟨s, r.addr⟩]
  | createDefault s, .record r => [⟨s, r.addr⟩]
  | _, _ => []

/-- All records that operations have created. -/
def made (log : List (RecordOp Value × Value)) : List Record :=
  log.flatMap fun (op, v) => op.created v

/-! ## Composed operations -/

/-- A well-typed operation on records is composed. -/
theorem exists_composes {op : RecordOp Expr} (h : op.WellTyped) : ∃ c, op.Composes c := by
  cases op with
  | create s values =>
    obtain ⟨c, hc⟩ := Closure.exists_of_native s.fieldTypes values h s.void_notMem_fieldTypes s.ty
      s.instantiate
    exact ⟨c, .create hc⟩
  | getField s i record =>
    obtain ⟨hi, hrecord⟩ := h
    have hfield := List.getElem?_eq_getElem hi
    have hc : ∃ c, Closure.getField s s.fields[i].name record = .ok c := by
      rw [Closure.getField, Schema.field_eq_ok hfield]
      exact Closure.exists_of_native [s.ty] [record] (by simp [hrecord]) (by simp [Schema.ty]) _ _
    exact hc.imp fun _ => .getField hfield
  | setField s i record value =>
    obtain ⟨hvalue, hrecord⟩ := h
    rw [Schema.fieldTypes, List.getElem?_map, Option.map_eq_some_iff] at hvalue
    obtain ⟨field, hfield, hty⟩ := hvalue
    have hvoid : field.ty ≠ .void := s.noVoid field (List.mem_of_getElem? hfield)
    have hc : ∃ c, Closure.setField s field.name record value = .ok c := by
      rw [Closure.setField, Schema.field_eq_ok hfield]
      exact Closure.exists_of_native [s.ty, field.ty] [record, value] (by simp [hrecord, hty])
        (by simp [Schema.ty, hvoid.symm]) _ _
    exact hc.imp fun _ => .setField hfield
  | _ => exact absurd h id

/-- A composed operation is a native function, which does to the values of the operands what the
operation does. -/
theorem exists_native_of_composes {op : RecordOp Expr} {c : Closure} (h : op.Composes c) :
    ∃ types ret run, (do Closure.fold (← Handle.native types ret run) op.operands) = .ok c ∧
      ∀ f : Expr → Exec Value, (do run (← op.operands.mapM f)) = (do (← op.mapM f).run) := by
  cases h with
  | create hc =>
    refine ⟨_, _, _, hc, fun f => ?_⟩
    simp only [operands, mapM, bind_assoc, pure_bind]
    rfl
  | getField hfield hc =>
    obtain ⟨found, hfound, hc⟩ := bind_eq_ok_iff.1 hc
    obtain rfl := Except.ok.inj ((Schema.field_eq_ok hfield).symm.trans hfound)
    refine ⟨_, _, _, hc, fun f => ?_⟩
    simp only [operands, mapM, List.mapM_cons, List.mapM_nil, bind_assoc, pure_bind]
    rfl
  | setField hfield hc =>
    obtain ⟨found, hfound, hc⟩ := bind_eq_ok_iff.1 hc
    obtain rfl := Except.ok.inj ((Schema.field_eq_ok hfield).symm.trans hfound)
    refine ⟨_, _, _, hc, fun f => ?_⟩
    simp only [operands, mapM, List.mapM_cons, List.mapM_nil, bind_assoc, pure_bind]
    rfl

/-- The operands of a composed operation run from left to right, and then the operation runs on what
they give. -/
theorem performs_of_composes {op : RecordOp Expr} {c : Closure} (h : op.Composes c) :
    c.Performs fun turns env => (do (← op.mapM (Expr.eval turns env)).run) := by
  obtain ⟨types, ret, run, hnative, hrun⟩ := exists_native_of_composes h
  exact Closure.performs_of_native hnative hrun

/-! ## Runs of operations -/

/-- What an operation does to a world when it returns. -/
inductive Does (w : World) : RecordOp Value → Value → World → Prop
  | create {s : Schema} {values : List Value} (hvalues : Fits s.fieldTypes values) :
      Does w (create s values) (.record ⟨s, w.records.size⟩) (w.addRecord values)
  | createDefault (s : Schema) :
      Does w (createDefault s) (.record ⟨s, w.records.size⟩)
        (w.addRecord (s.fieldTypes.map Ty.default))
  | getField {s : Schema} {r : Record} {i : Nat} {v : Value} (hr : r.schema = s)
      (hv : (w.fieldsOf r)[i]? = some v) : Does w (getField s i (.record r)) v w
  | setField {s : Schema} {r : Record} {i : Nat} (v : Value) (hr : r.schema = s)
      (hi : i < (w.fieldsOf r).length) :
      Does w (setField s i (.record r) v) .unit (w.setFields r ((w.fieldsOf r).set i v))
  | get {r : Record} {i : Nat} {v : Value} (hv : (w.fieldsOf r)[i]? = some v) :
      Does w (get (.record r) i) v w
  | set {r : Record} {i : Nat} (v : Value) (hi : i < (w.fieldsOf r).length) :
      Does w (set (.record r) i v) .unit (w.setFields r ((w.fieldsOf r).set i v))

variable {op : RecordOp Value} {v : Value} {w w' : World} {history : StoreHistory}

/-- What an operation is said to do when it returns is what its run does. -/
theorem Does.run_eq (h : Does w op v w') : op.run w = .ok v w' := by
  cases h with
  | create hvalues =>
    rw [run, Schema.instantiate, Schema.mismatch?_eq_none_iff.2 hvalues]
    rfl
  | createDefault s => rfl
  | getField hr hv => exact Value.getField_apply hr hv
  | setField v hr hi => exact Value.setField_apply hr hi
  | get hv => exact Record.get_apply hv
  | set v hi => exact Exec.bind_of_ok (Record.set_apply_of_lt hi)

/-- A valid operation does something. -/
theorem exists_does (h : op.Valid (lengthOf w.records)) : ∃ v w', Does w op v w' := by
  cases op with
  | create s values => exact ⟨_, _, .create h⟩
  | createDefault s => exact ⟨_, _, .createDefault s⟩
  | getField s i record =>
    cases record with
    | record r => exact ⟨_, _, .getField h.1 (List.getElem?_eq_getElem h.2)⟩
    | _ => exact absurd h id
  | setField s i record v =>
    cases record with
    | record r => exact ⟨_, _, .setField v h.1 h.2⟩
    | _ => exact absurd h id
  | get record i =>
    cases record with
    | record r => exact ⟨_, _, .get (List.getElem?_eq_getElem h)⟩
    | _ => exact absurd h id
  | set record i v =>
    cases record with
    | record r => exact ⟨_, _, .set v h⟩
    | _ => exact absurd h id

/-- An operation that is not valid throws, and that is all it does. -/
theorem exists_raise_of_not_valid (h : ¬ op.Valid (lengthOf w.records)) :
    ∃ fault, op.run w = Exec.raise fault w := by
  -- a position behind the fields is refused by both accesses
  have hget {r : Record} {i : Nat} (hi : ¬ i < lengthOf w.records r.addr) :
      r.get i w = Exec.raise (r.noSuchField i) w :=
    Record.get_apply_of_none (List.getElem?_eq_none (Nat.le_of_not_lt hi))
  have hset {r : Record} {i : Nat} {v : Value} (hi : ¬ i < lengthOf w.records r.addr) :
      (do r.set i v; return .unit : Exec Value) w = Exec.raise (r.noSuchField i) w :=
    Exec.bind_of_thrown (Record.set_apply_of_le (Nat.le_of_not_lt hi))
  cases op with
  | create s values =>
    -- an operation is invalid for another cause in each case, and the run meets that cause first
    cases hmismatch : s.mismatch? values with
    | none => exact absurd (Schema.mismatch?_eq_none_iff.1 hmismatch) h
    | some fault =>
      refine ⟨fault, ?_⟩
      rw [run, Schema.instantiate, hmismatch]
  | createDefault s => exact absurd trivial h
  | getField s i record =>
    rw [run, Value.getField]
    cases hr : s.expectInstance record with
    | error fault => exact ⟨fault, rfl⟩
    | ok r =>
      obtain ⟨rfl, rfl⟩ := Schema.expectInstance_ok_iff.1 hr
      exact ⟨_, hget fun hi => h ⟨rfl, hi⟩⟩
  | setField s i record v =>
    rw [run, Value.setField]
    cases hr : s.expectInstance record with
    | error fault => exact ⟨fault, rfl⟩
    | ok r =>
      obtain ⟨rfl, rfl⟩ := Schema.expectInstance_ok_iff.1 hr
      exact ⟨_, hset fun hi => h ⟨rfl, hi⟩⟩
  | get record i =>
    cases record with
    | record r => exact ⟨_, hget h⟩
    | _ => exact ⟨_, rfl⟩
  | set record i v =>
    cases record with
    | record r => exact ⟨_, hset h⟩
    | _ => exact ⟨_, rfl⟩

/-- What an operation adds to the history is what it has done. -/
theorem Does.leads (h : Does w op v w') : (op.recorded v).Leads w.records w'.records := by
  cases h with
  | create hvalues => exact .made .start _
  | createDefault s => exact .made .start _
  | getField hr hv => exact .start
  | setField v hr hi => exact .wrote .start hi v
  | get hv => exact .start
  | set v hi => exact .wrote .start hi v

/-- The operations on all records. -/
def store : StoreOps (RecordOp Value) where
  run := run
  objects w := w.records
  Valid := Valid
  Does := Does
  recorded := recorded
  run_eq := Does.run_eq
  exists_does := exists_does
  exists_raise := exists_raise_of_not_valid
  leads := Does.leads
  kept_nextId _ _ := rfl

/-- An operation returns exactly what it is said to do. -/
theorem run_eq_ok_iff : op.run w = .ok v w' ↔ Does w op v w' := store.run_eq_ok_iff

/-- An operation has created no record, or a new one with a value for each field of its schema. -/
theorem Does.created_cases (h : Does w op v w') : op.created v = [] ∨
    ∃ s values, op.created v = [⟨s, w.records.size⟩] ∧
      op.recorded v = [.made w.records.size values] ∧ values.length = s.fields.length := by
  have hlength (s : Schema) : s.fieldTypes.length = s.fields.length := List.length_map _
  cases h with
  | @create s values hvalues =>
    exact .inr ⟨s, values, rfl, rfl, hvalues.length_eq.symm.trans (hlength s)⟩
  | createDefault s =>
    exact .inr ⟨s, _, rfl, rfl, (List.length_map _).trans (hlength s)⟩
  | getField | setField | get | set => exact .inl rfl

/-- The operands of an operation run one after the other, so they cover the objects if each of them
does. -/
theorem covers_mapM {f : ι → Exec β} {op : RecordOp ι}
    (hf : ∀ i ∈ op.operands, store.Covers (f i)) : store.Covers (op.mapM f) := by
  cases op with
  | create s values => exact (StoreOps.Covers.mapM hf).bind fun _ => .pure _
  | createDefault s => exact .pure _
  | getField s i record | get record i =>
    obtain ⟨hrecord, -⟩ := List.forall_mem_cons.1 hf
    exact hrecord.bind fun _ => .pure _
  | setField s i record value | set record i value =>
    obtain ⟨hrecord, hvalue, -⟩ := List.forall_mem_cons.1 hf |>.imp_right List.forall_mem_cons.1
    exact hrecord.bind fun _ => hvalue.bind fun _ => .pure _

/-- Closures of operations on records. -/
def Composed (operands : List Expr) (c : Closure) : Prop :=
  ∃ op : RecordOp Expr, op.operands = operands ∧ op.Composes c

/-- Closures of operations on records run in operations on records, if their operands do. -/
theorem composes : store.Composes Composed := by
  rintro operands c ⟨op, rfl, hc⟩
  exact ⟨_, performs_of_composes hc, fun turns env hoperands =>
    (covers_mapM hoperands).bind fun op => .run op⟩

end RecordOp

/-! ## Records after a history -/

namespace World

/-- A history tells of all records of a world. Some of these are known with their schemas, each
at its own address. -/
structure RecordsTold (w : World) (made : List Record) (history : StoreHistory) : Prop where
  recounts : history.Recounts w.records
  lengthAt_eq : ∀ r ∈ made, history.lengthAt r.addr = some r.schema.fields.length
  eq_of_addr_eq : ∀ r ∈ made, ∀ r' ∈ made, r.addr = r'.addr → r = r'

/-- Of all records, nothing but a field of one of them has changed. -/
structure ChangesField (w : World) (r : Record) (i : Nat) (v : Value) (w' : World) : Prop where
  lt_length : i < r.schema.fields.length
  fieldsOf_eq : w'.fieldsOf r = (w.fieldsOf r).set i v
  others_eq : ∀ r' : Record, r'.addr ≠ r.addr → w'.fieldsOf r' = w.fieldsOf r'

/-- What operations on records do in a world after a history of such operations. -/
structure RecordsFollow (w : World) (made : List Record) (history : StoreHistory) : Prop
    extends RecordOp.store.Follows w history where
  /-- A record has been made with a value for each field of its schema. -/
  lengthAt_eq : ∀ r ∈ made, history.lengthAt r.addr = some r.schema.fields.length
  /-- No two records share an address. -/
  eq_of_addr_eq : ∀ r ∈ made, ∀ r' ∈ made, r.addr = r'.addr → r = r'
  /-- A read returns what was last written there, or what was there first. -/
  getField_eq : ∀ s i (r : Record) v w', (RecordOp.getField s i (.record r)).run w = .ok v w' →
    history.valueAt r.addr i = some v ∧ w' = w
  get_eq : ∀ (r : Record) i v w', (RecordOp.get (.record r) i).run w = .ok v w' →
    history.valueAt r.addr i = some v ∧ w' = w
  /-- A write through a schema changes one field of one record, which the schema itself has made. -/
  setField_eq : ∀ s i r v x w', r ∈ made →
    (RecordOp.setField s i (.record r) v).run w = .ok x w' →
      r.schema = s ∧ w.ChangesField r i v w'
  set_eq : ∀ r i v x w', r ∈ made →
    (RecordOp.set (.record r) i v).run w = .ok x w' → w.ChangesField r i v w'
  /-- A new record is none of those that are there. -/
  create_new : ∀ s values v w', (RecordOp.create s values).run w = .ok v w' →
    ∃ r : Record, v = .record r ∧ r.schema = s ∧ history.lengthAt r.addr = none
  createDefault_new : ∀ s v w', (RecordOp.createDefault s).run w = .ok v w' →
    ∃ r : Record, v = .record r ∧ r.schema = s ∧ history.lengthAt r.addr = none

namespace RecordsTold

variable {w w' : World} {made : List Record} {history : StoreHistory}

/-- The empty history tells of a world without records. -/
theorem start (hnone : w.records = #[]) : w.RecordsTold [] [] where
  recounts := hnone ▸ StoreHistory.recounts_nil
  lengthAt_eq _ h := by cases h
  eq_of_addr_eq _ h := by cases h

/-- A record that is known is there. -/
theorem addr_lt (h : w.RecordsTold made history) {r : Record} (hr : r ∈ made) :
    r.addr < w.records.size :=
  (h.recounts.lengthAt_eq_some_iff.1 (h.lengthAt_eq r hr)).1

/-- What keeps the records keeps what the history tells of them. -/
theorem of_eq (h : w.RecordsTold made history) (hrecords : w'.records = w.records) :
    w'.RecordsTold made history :=
  ⟨hrecords ▸ h.recounts, h.lengthAt_eq, h.eq_of_addr_eq⟩

/-- An operation that returns goes on with the history. -/
theorem step {op : RecordOp Value} {v : Value} (h : w.RecordsTold made history)
    (hdoes : op.Does w v w') :
    w'.RecordsTold (op.created v ++ made) (op.recorded v ++ history) := by
  have hkept (r : Record) (hr : r ∈ made) :
      StoreHistory.lengthAt (op.recorded v ++ history) r.addr = some r.schema.fields.length :=
    hdoes.leads.lengthAt_eq h.recounts (h.lengthAt_eq r hr)
  obtain hnone | ⟨s, values, hcreated, hrecorded, hlength⟩ := hdoes.created_cases
  · rw [hnone]
    exact ⟨hdoes.leads.recounts h.recounts, hkept, h.eq_of_addr_eq⟩
  · -- the new record stands behind all others
    have hne (r : Record) (hr : r ∈ made) : r.addr ≠ w.records.size := Nat.ne_of_lt (h.addr_lt hr)
    rw [hcreated, List.singleton_append]
    refine ⟨hdoes.leads.recounts h.recounts, List.forall_mem_cons.2 ⟨?_, hkept⟩,
      List.forall_mem_cons.2 ⟨List.forall_mem_cons.2 ⟨fun _ => rfl, fun r hr haddr => ?_⟩,
        fun r hr => List.forall_mem_cons.2 ⟨fun haddr => ?_, h.eq_of_addr_eq r hr⟩⟩⟩
    · rw [hrecorded, List.singleton_append, StoreHistory.lengthAt, if_pos rfl, hlength]
    · exact absurd haddr.symm (hne r hr)
    · exact absurd haddr (hne r hr)

/-- The history of a course goes on telling of all records. -/
theorem course {log : List (RecordOp Value × Value)} (h : w.RecordsTold made history)
    (hcourse : RecordOp.store.Course w w' log) :
    w'.RecordsTold (RecordOp.made log ++ made) (RecordOp.store.history log ++ history) := by
  induction hcourse with
  | start => exact h
  | returned _ hrun ih =>
    rw [RecordOp.made, StoreOps.history, List.flatMap_cons, List.flatMap_cons, List.append_assoc,
      List.append_assoc]
    exact ih.step (RecordOp.run_eq_ok_iff.1 hrun)
  | failed _ hrun ih => exact ih.of_eq (StoreOps.objects_eq_of_thrown hrun)
  | elsewhere _ hkept ih => exact ih.of_eq hkept

/-- A record that has been made has a value for each field, whatever has been written to it. -/
theorem complete (h : w.RecordsTold made history) {r : Record} (hr : r ∈ made) : r.Complete w :=
  (h.recounts.lengthAt_eq_some_iff.1 (h.lengthAt_eq r hr)).2

/-- Writing a field of a known record changes that field of that record only. -/
theorem changesField (h : w.RecordsTold made history) {r : Record} (hr : r ∈ made) {i : Nat}
    (hi : i < (w.fieldsOf r).length) (v : Value) :
    w.ChangesField r i v (w.setFields r ((w.fieldsOf r).set i v)) where
  lt_length := h.complete hr ▸ hi
  fieldsOf_eq := fieldsOf_setFields w r _ (h.addr_lt hr)
  others_eq _ hne := fieldsOf_setFields_ne w _ hne.symm

/-- After a history that tells of all records, operations do what the history says. -/
theorem follow (h : w.RecordsTold made history) : w.RecordsFollow made history := by
  have hnew : history.lengthAt w.records.size = none :=
    h.recounts.lengthAt_eq_none_iff.2 (Nat.le_refl _)
  refine ⟨RecordOp.store.follows h.recounts, h.lengthAt_eq, h.eq_of_addr_eq, ?getField_eq,
    ?get_eq, ?setField_eq, ?set_eq, ?create_new, ?createDefault_new⟩
  case getField_eq =>
    intro s i r v w' hrun
    cases RecordOp.run_eq_ok_iff.1 hrun with
    | getField hr hv => exact ⟨(h.recounts.value_eq r.addr i).symm.trans hv, rfl⟩
  case get_eq =>
    intro r i v w' hrun
    cases RecordOp.run_eq_ok_iff.1 hrun with
    | get hv => exact ⟨(h.recounts.value_eq r.addr i).symm.trans hv, rfl⟩
  case setField_eq =>
    intro s i r v x w' hr hrun
    cases RecordOp.run_eq_ok_iff.1 hrun with
    | setField v hs hi => exact ⟨hs, h.changesField hr hi v⟩
  case set_eq =>
    intro r i v x w' hr hrun
    cases RecordOp.run_eq_ok_iff.1 hrun with
    | set v hi => exact h.changesField hr hi v
  case create_new =>
    intro s values v w' hrun
    cases RecordOp.run_eq_ok_iff.1 hrun with
    | create hvalues => exact ⟨_, rfl, rfl, hnew⟩
  case createDefault_new =>
    intro s v w' hrun
    cases RecordOp.run_eq_ok_iff.1 hrun with
    | createDefault s => exact ⟨_, rfl, rfl, hnew⟩

end RecordsTold

end World

namespace Closure

/-- Records are a store of fields, and each schema has access to its own records only. Operations on
them are composed for operands of the right types, run on the values of the operands, and follow
the history of all that was done before. -/
theorem records_are_stores :
    (∀ op : RecordOp Expr, op.WellTyped → ∃ c, op.Composes c) ∧
      (∀ (op : RecordOp Expr) c, op.Composes c →
        c.Performs fun turns env => (do (← op.mapM (Expr.eval turns env)).run)) ∧
      (∀ c, (Expr.closure c).Over RecordOp.Composed → ∀ turns values,
        RecordOp.store.Covers (c.invoke turns values)) ∧
      (∀ w : World, w.records = #[] → w.RecordsTold [] []) ∧
      ∀ (w₀ : World) made history, w₀.RecordsTold made history →
        ∀ w log, RecordOp.store.Course w₀ w log →
          w.RecordsFollow (RecordOp.made log ++ made) (RecordOp.store.history log ++ history) :=
  ⟨fun _ => RecordOp.exists_composes, fun _ _ => RecordOp.performs_of_composes,
    fun _ => RecordOp.store.covers_invoke RecordOp.composes, fun _ => .start,
    fun _ _ _ htold _ _ hcourse => (htold.course hcourse).follow⟩

/-- Two schemas have one name. The first one writes to its own record, and to no record of the
second one, although the static types are the same. -/
theorem records_are_stores_of_same_name :
    let s : Schema := ⟨0, "P", [⟨"x", .int⟩], by decide, by decide⟩
    let t : Schema := ⟨1, "P", [⟨"x", .int⟩, ⟨"y", .int⟩], by decide, by decide⟩
    let r : Record := ⟨s, 0⟩
    let q : Record := ⟨t, 1⟩
    let log : List (RecordOp Value × Value) :=
      [(.setField s 0 (.record r) (.int 9), .unit),
        (.create t [.int 2, .int 3], .record q), (.create s [.int 1], .record r)]
    s.ty = t.ty ∧
    ∃ w : World, RecordOp.store.Course {} w log ∧
      (RecordOp.get (.record r) 0).run w = .ok (.int 9) w ∧
      (RecordOp.getField t 0 (.record q)).run w = .ok (.int 2) w ∧
      (∃ e, (RecordOp.setField s 0 (.record q) (.int 4)).run w =
        .thrown e { w with nextId := 1 }) ∧
      ∃ e, (RecordOp.getField t 1 (.record r)).run w = .thrown e { w with nextId := 1 } := by
  intro s t r q log
  let w₁ : World := { records := #[[.int 1]] }
  let w₂ : World := { records := #[[.int 1], [.int 2, .int 3]] }
  let w₃ : World := { records := #[[.int 9], [.int 2, .int 3]] }
  have hr : (RecordOp.create s [.int 1]).run {} = .ok (.record r) w₁ := rfl
  have hq : (RecordOp.create t [.int 2, .int 3]).run w₁ = .ok (.record q) w₂ := rfl
  have hset : (RecordOp.setField s 0 (.record r) (.int 9)).run w₂ = .ok .unit w₃ := rfl
  have hcourse : RecordOp.store.Course {} w₃ log :=
    ((StoreOps.Course.start.returned hr).returned hq).returned hset
  obtain ⟨-, -, -, hstart, hfollow⟩ := records_are_stores
  have hw := hfollow {} [] [] (hstart {} rfl) w₃ log hcourse
  have hne : s ≠ t := fun h => absurd (congrArg Schema.id h) (by decide)
  refine ⟨rfl, w₃, hcourse, ?_, ?_, ?_, ?_⟩
  · obtain ⟨v, w', hrun⟩ := (hw.returns_iff (.get (.record r) 0)).2 (by decide : 0 < 1)
    obtain ⟨hv, rfl⟩ := hw.get_eq r 0 v w' hrun
    obtain rfl := Option.some.inj hv
    exact hrun
  · have hvalid : (0 : Nat) < 2 := by decide
    obtain ⟨v, w', hrun⟩ := (hw.returns_iff (.getField t 0 (.record q))).2 ⟨rfl, hvalid⟩
    obtain ⟨hv, rfl⟩ := hw.getField_eq t 0 q v w' hrun
    obtain rfl := Option.some.inj hv
    exact hrun
  · exact hw.throws (.setField s 0 (.record q) (.int 4)) fun h => hne h.1.symm
  · exact hw.throws (.getField t 1 (.record r)) fun h => hne h.1

end Closure

end Splice
