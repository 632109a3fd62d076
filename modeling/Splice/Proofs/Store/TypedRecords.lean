import Splice.Proofs.Closure.Invocation
import Splice.Proofs.Columns.Lists
import Splice.Proofs.Exec.Trace

/-!
# Records of their schemas

A record is well typed in a world if it has one value for each field of its schema, each of the
field's type. Nothing checks this when a record is read. A new record has one value for each field,
and every write keeps it so. The types are kept by whatever makes records of admitted values and
writes admitted values only: `World.RecordStep` says what that is, and the lemmas behind it that
creating records, and composed closures that store constants and parameters, do no more. Writing a
field by its position is a step of this sort for admitted values alone.
-/

namespace Splice

/-- The argument in a place is replaced by an admitted one. -/
theorem Fits.set {params : List Ty} {args : List Value} (h : Fits params args) {i : Nat} {ty : Ty}
    {v : Value} (hi : params[i]? = some ty) (hv : ty.admits v = true) :
    Fits params (args.set i v) := by
  induction h generalizing i with
  | nil => exact nil
  | cons hw hrest ih =>
    cases i with
    | zero =>
      obtain rfl := Option.some.inj hi
      exact cons hv hrest
    | succ i => exact cons hw (ih hi)

namespace World

variable {w : World} {r r' : Record}

/-- Records at one address have the same values. -/
theorem fieldsOf_of_addr_eq (w : World) (h : r.addr = r'.addr) : w.fieldsOf r = w.fieldsOf r' := by
  rw [fieldsOf, fieldsOf, h]

/-- A record that has a value is there. -/
theorem addr_lt_of_lt {index : Nat} (h : index < (w.fieldsOf r).length) :
    r.addr < w.records.size := by
  refine Nat.lt_of_not_le fun hle => ?_
  rw [fieldsOf, Array.getElem?_eq_none hle] at h
  exact Nat.not_lt_zero _ h

end World

namespace Record

/-- Records of one schema are told apart by their addresses. -/
theorem eq_of_addr_eq {r r' : Record} (hschema : r.schema = r'.schema) (haddr : r.addr = r'.addr) :
    r = r' := by
  cases r
  cases r'
  simp_all

/-- Whether the field at a position, if there is one, has a type that admits a value. -/
def Admits (r : Record) (index : Nat) (v : Value) : Prop :=
  ∀ field, r.schema.fields[index]? = some field → field.ty.admits v = true

/-- One value for each field, each of the field's type. -/
def Typed (r : Record) (w : World) : Prop := Fits r.schema.fieldTypes (w.fieldsOf r)

instance (r : Record) (w : World) : Decidable (r.Typed w) := inferInstanceAs (Decidable (Fits _ _))

/-- A record with a value of each field's type has a value for each field. -/
theorem Typed.complete {r : Record} {w : World} (h : r.Typed w) : r.Complete w := by
  rw [Complete, ← Fits.length_eq h, Schema.fieldTypes, List.length_map]

/-- A well-typed record has an admitted value in the place of each field. -/
theorem Typed.exists_getElem? {r : Record} {w : World} (h : r.Typed w) {index : Nat} {field : Field}
    (hfield : r.schema.fields[index]? = some field) :
    ∃ v, (w.fieldsOf r)[index]? = some v ∧ field.ty.admits v = true := by
  refine Fits.exists_getElem? h ?_
  rw [Schema.fieldTypes, List.getElem?_map, hfield]
  rfl

/-- What stands in the place of a field of a well-typed record is admitted there. -/
theorem Typed.admits_of_getElem? {r : Record} {w : World} (h : r.Typed w) {index : Nat} {v : Value}
    (hv : (w.fieldsOf r)[index]? = some v) : r.Admits index v := by
  intro field hfield
  obtain ⟨v', hv', hadmits⟩ := h.exists_getElem? hfield
  rw [hv] at hv'
  exact Option.some.inj hv' ▸ hadmits

/-- An admitted value in the place of a field keeps a record well typed, and a value behind the
fields changes nothing. -/
theorem Typed.set {r : Record} {w : World} (h : r.Typed w) {index : Nat} {v : Value}
    (hv : r.Admits index v) : Fits r.schema.fieldTypes ((w.fieldsOf r).set index v) := by
  cases hfield : r.schema.fields[index]? with
  | some field =>
    refine Fits.set h ?_ (hv field hfield)
    rw [Schema.fieldTypes, List.getElem?_map, hfield]
    rfl
  | none =>
    have hle := Nat.le_trans (Nat.le_of_eq h.complete) (List.getElem?_eq_none_iff.1 hfield)
    rw [List.set_eq_of_length_le hle]
    exact h

/-- What is read stands in the place that is read. -/
theorem getElem?_of_get_eq_ok {r : Record} {w w' : World} {index : Nat} {v : Value}
    (h : r.get index w = .ok v w') : (w.fieldsOf r)[index]? = some v := by
  rw [get, Exec.bind_of_ok (rfl : Exec.world w = .ok w w)] at h
  cases hv : (w.fieldsOf r)[index]? with
  | some u =>
    rw [hv] at h
    cases h
    rfl
  | none =>
    rw [hv] at h
    cases h

/-- Writing to a place that is there replaces the value in it. -/
theorem set_apply_of_lt {r : Record} {w : World} {index : Nat} {v : Value}
    (h : index < (w.fieldsOf r).length) :
    r.set index v w = .ok () (w.setFields r ((w.fieldsOf r).set index v)) := by
  rw [set, Exec.bind_apply]
  exact congrFun (if_pos h) w

/-- Writing behind the fields is refused. -/
theorem set_apply_of_le {r : Record} {w : World} {index : Nat} {v : Value}
    (h : (w.fieldsOf r).length ≤ index) :
    r.set index v w = Exec.raise (r.noSuchField index) w := by
  rw [set, Exec.bind_apply]
  exact congrFun (if_neg (Nat.not_lt_of_le h)) w

end Record

/-- A composed write goes by position, once the record is known to be of the schema. -/
theorem Value.setField_apply {s : Schema} {r : Record} {i : Nat} {v : Value} {w : World}
    (hr : r.schema = s) (hi : i < (w.fieldsOf r).length) :
    (record r).setField s i v w = .ok .unit (w.setFields r ((w.fieldsOf r).set i v)) := by
  rw [setField, Schema.expectInstance_ok_iff.2 ⟨rfl, hr⟩]
  exact Exec.bind_of_ok (Record.set_apply_of_lt hi)

/-! ## All records of a world -/

/-- The records that have been made in a world, in order, and all of them are well typed. -/
structure World.Typed (w : World) (rs : List Record) : Prop where
  length_eq : rs.length = w.records.size
  addr_eq : ∀ (i : Nat) (r : Record), rs[i]? = some r → r.addr = i
  typed : ∀ r ∈ rs, r.Typed w

/-- What may be done to the records of a world: nothing, making a record of admitted values, and
writing an admitted value to a field. -/
inductive World.RecordStep (w : World) (rs : List Record) : World → List Record → Prop
  | kept {w' : World} (hrecords : w'.records = w.records) : RecordStep w rs w' rs
  | made {w' : World} (s : Schema) {values : List Value} (hvalues : Fits s.fieldTypes values)
      (hrecords : w'.records = w.records.push values) :
      RecordStep w rs w' (rs ++ [⟨s, w.records.size⟩])
  | wrote {w' : World} {r : Record} {index : Nat} {v : Value} (hr : r ∈ rs)
      (hv : r.Admits index v)
      (hrecords : w'.records = (w.setFields r ((w.fieldsOf r).set index v)).records) :
      RecordStep w rs w' rs

namespace World

variable {w w' : World} {rs rs' : List Record} {r r' : Record}

/-- Records hold what they held as long as the storage of records is the same. -/
theorem fieldsOf_congr (h : w'.records = w.records) (r : Record) :
    w'.fieldsOf r = w.fieldsOf r := by
  rw [fieldsOf, fieldsOf, h]

namespace Typed

/-- A record that has been made is there. -/
theorem addr_lt (h : w.Typed rs) (hr : r ∈ rs) : r.addr < w.records.size := by
  obtain ⟨i, hi⟩ := List.mem_iff_getElem?.1 hr
  rw [h.addr_eq i r hi, ← h.length_eq]
  exact (List.getElem?_eq_some_iff.1 hi).1

/-- Records are told apart by their addresses. -/
theorem eq_of_addr_eq (h : w.Typed rs) (hr : r ∈ rs) (hr' : r' ∈ rs) (haddr : r.addr = r'.addr) :
    r = r' := by
  obtain ⟨i, hi⟩ := List.mem_iff_getElem?.1 hr
  obtain ⟨j, hj⟩ := List.mem_iff_getElem?.1 hr'
  rw [h.addr_eq i r hi, h.addr_eq j r' hj] at haddr
  rw [haddr, hj] at hi
  exact (Option.some.inj hi).symm

/-- A world without records has none that is not well typed. -/
theorem start (hnone : w.records = #[]) : w.Typed [] :=
  ⟨by rw [hnone]; rfl, nofun, nofun⟩

/-- The steps keep all records well typed. -/
theorem step (h : w.Typed rs) (hstep : w.RecordStep rs w' rs') : w'.Typed rs' := by
  -- nothing happens to the others: a new record is behind them, and a written one is one of them
  cases hstep with
  | kept hrecords =>
    refine ⟨h.length_eq.trans (by rw [hrecords]), h.addr_eq, fun r hr => ?_⟩
    unfold Record.Typed
    rw [fieldsOf_congr hrecords]
    exact h.typed r hr
  | @made s values hvalues hrecords =>
    refine ⟨?_, fun i r hr => ?_, fun r hr => ?_⟩
    · rw [hrecords, Array.size_push, List.length_append, h.length_eq, List.length_singleton]
    · rcases Nat.lt_or_ge i rs.length with hi | hi
      · rw [List.getElem?_append_left hi] at hr
        exact h.addr_eq i r hr
      · rw [List.getElem?_append_right hi, List.getElem?_singleton] at hr
        split at hr
        · next hzero =>
          obtain rfl := Option.some.inj hr
          change w.records.size = i
          rw [← h.length_eq]
          omega
        · cases hr
    · unfold Record.Typed fieldsOf
      rw [hrecords]
      rcases List.mem_append.1 hr with hr | hr
      · rw [Array.getElem?_push_lt (h.addr_lt hr), ← Array.getElem?_eq_getElem (h.addr_lt hr)]
        exact h.typed r hr
      · obtain rfl := List.mem_singleton.1 hr
        rw [Array.getElem?_push_size]
        exact hvalues
  | @wrote r index v hr hv hrecords =>
    refine ⟨h.length_eq.trans ?_, h.addr_eq, fun r' hr' => ?_⟩
    · rw [hrecords]
      exact Array.size_setIfInBounds.symm
    · unfold Record.Typed
      rw [fieldsOf_congr hrecords]
      by_cases haddr : r.addr = r'.addr
      · obtain rfl := h.eq_of_addr_eq hr hr' haddr
        rw [fieldsOf_setFields w r _ (h.addr_lt hr)]
        exact (h.typed r hr).set hv
      · rw [fieldsOf_setFields_ne w _ haddr]
        exact h.typed r' hr'

/-- Writing by position keeps all records well typed for admitted values only. -/
theorem set_iff (h : w.Typed rs) (hr : r ∈ rs) {index : Nat} {v : Value}
    (hrun : r.set index v w = .ok () w') : w'.Typed rs ↔ r.Admits index v := by
  rcases Nat.lt_or_ge index (w.fieldsOf r).length with hlt | hge
  · rw [Record.set_apply_of_lt hlt] at hrun
    cases hrun
    refine ⟨fun h' => (h'.typed r hr).admits_of_getElem? ?_, fun hv => h.step (.wrote hr hv rfl)⟩
    rw [fieldsOf_setFields w r _ (h.addr_lt hr), List.getElem?_set_self hlt]
  · rw [Record.set_apply_of_le hge] at hrun
    cases hrun

end Typed

end World

/-! ## Runs -/

/-- The record that a run has returned, if it has returned one. -/
def Outcome.records : Outcome Value → List Record
  | .ok (.record r) _ => [r]
  | _ => []

/-- A run that has thrown has returned no record. -/
@[simp] theorem Outcome.records_thrown (e : Exception) (w : World) :
    (thrown e w : Outcome Value).records = [] :=
  rfl

/-- A run that has ended has made a step and touched no array, and a record that it returns is a new
one. -/
def Exec.Steps (rs : List Record) (w : World) (x : Exec Value) : Prop :=
  ∀ w', (x w).world? = some w' →
    w.RecordStep rs w' (rs ++ (x w).records) ∧ w'.arrays = w.arrays

namespace Exec.Steps

variable {rs : List Record} {w : World}

/-- A refusal leaves records and arrays alone. -/
theorem raise (fault : Fault) : Steps rs w (Exec.raise fault) := by
  rintro w' hrun
  obtain rfl := Option.some.inj hrun
  rw [Exec.raise_apply, Outcome.records_thrown, List.append_nil]
  exact ⟨.kept rfl, rfl⟩

/-- Allocating a record of admitted values is a step. -/
theorem allocate {s : Schema} {values : List Value} (hvalues : Fits s.fieldTypes values) :
    Steps rs w (s.allocate values) := by
  rintro w' hrun
  obtain rfl := Option.some.inj hrun
  exact ⟨.made s hvalues rfl, rfl⟩

/-- Values that do not fit are refused before a record is made. -/
theorem instantiate (s : Schema) (values : List Value) : Steps rs w (s.instantiate values) := by
  unfold Schema.instantiate
  split
  · next h => exact allocate (Schema.mismatch?_eq_none_iff.1 h)
  · exact raise _

/-- The default of every type is admitted by it. -/
theorem instantiateDefault (s : Schema) : Steps rs w s.instantiateDefault := by
  refine allocate ?_
  unfold Fits
  rw [List.forall₂_map_right_iff]
  exact List.forall₂_same.2 fun ty _ => ty.admits_default

/-- Writing an admitted value to a field of a record. -/
theorem set {r : Record} (hr : r ∈ rs) {index : Nat} {v : Value} (hv : r.Admits index v) :
    Steps rs w (do
      r.set index v
      return .unit) := by
  intro w' hrun
  -- a place behind the fields is refused, so all that is written is written to a field
  rcases Nat.lt_or_ge index (w.fieldsOf r).length with hlt | hge
  · rw [Exec.bind_of_ok (Record.set_apply_of_lt hlt)] at hrun ⊢
    obtain rfl := Option.some.inj hrun
    rw [Exec.pure_apply, Outcome.records, List.append_nil]
    · exact ⟨.wrote hr hv rfl, rfl⟩
    · nofun
  · rw [Exec.bind_of_thrown ((Record.set_apply_of_le hge).trans (Exec.raise_apply _ w))] at hrun ⊢
    exact raise (r.noSuchField index) w' hrun

end Exec.Steps

/-! ## Closures over constants and parameters -/

/-- Records are among those that have been made. -/
def Value.KnownTo (rs : List Record) (v : Value) : Prop := ∀ r, v = .record r → r ∈ rs

/-- Constants and parameters. -/
inductive Expr.Plain (rs : List Record) : Expr → Prop
  | param (v : Var) : Plain rs (.var v)
  | constant {ty : Ty} {v : Value} {c : Closure} (hv : v.KnownTo rs)
      (hc : Closure.constantTyped ty v = .ok c) : Plain rs (.closure c)

namespace Expr.Plain

variable {rs : List Record}

/-- A plain operand has an admitted value and does nothing. -/
theorem exists_eval {e : Expr} (he : e.Plain rs) (hty : e.ty ≠ .void) {env : Env}
    (henv : ∀ v ∈ e.vars, v.ty.admits (env v) = true ∧ (env v).KnownTo rs) :
    ∃ v, e.ty.admits v = true ∧ v.KnownTo rs ∧ ∀ turns, e.eval turns env = pure v := by
  cases he with
  | param v =>
    obtain ⟨hadmits, hknown⟩ := henv v (List.mem_singleton.2 rfl)
    exact ⟨env v, hadmits, hknown, fun _ => rfl⟩
  | @constant ty v c hv hc =>
    obtain ⟨-, hcty, hadmits, heval⟩ := Closure.eval_of_constantTyped hc
    have hty : ty ≠ .void := fun hvoid => hty (hcty.trans hvoid)
    refine ⟨v, ?_, hv, fun turns => ?_⟩
    · rw [Expr.ty, hcty]
      exact hadmits hty
    · rw [Expr.eval, heval, if_neg hty]

/-- So do several of them, one after the other. -/
theorem exists_mapM_eval {args : List Expr} (hargs : ∀ e ∈ args, e.Plain rs)
    (hty : ∀ e ∈ args, e.ty ≠ .void) {env : Env}
    (henv : ∀ e ∈ args, ∀ v ∈ e.vars, v.ty.admits (env v) = true ∧ (env v).KnownTo rs) :
    ∃ values, Fits (args.map Expr.ty) values ∧ (∀ v ∈ values, v.KnownTo rs) ∧
      ∀ turns, args.mapM (Expr.eval turns env) = pure values := by
  induction args with
  | nil => exact ⟨[], .nil, nofun, fun _ => rfl⟩
  | cons e rest ih =>
    obtain ⟨he, hrest⟩ := List.forall_mem_cons.1 hargs
    obtain ⟨hety, hrestty⟩ := List.forall_mem_cons.1 hty
    obtain ⟨heenv, hrestenv⟩ := List.forall_mem_cons.1 henv
    obtain ⟨v, hv, hknown, heval⟩ := he.exists_eval hety heenv
    obtain ⟨values, hvalues, hknowns, hevals⟩ := ih hrest hrestty hrestenv
    refine ⟨v :: values, .cons hv hvalues, List.forall_mem_cons.2 ⟨hknown, hknowns⟩,
      fun turns => ?_⟩
    rw [List.mapM_cons, heval, hevals]
    rfl

end Expr.Plain

/-- A handle that is applied to constants and parameters is called on arguments of its parameter
types, once the values of the parameters have been checked. -/
theorem Closure.exists_invoke_of_plain {rs : List Record} {h : Handle} {args : List Expr}
    {c : Closure} (hc : Closure.fold h args = .ok c) (hargs : ∀ e ∈ args, e.Plain rs) (turns : Nat)
    {values : List Value} (hvalues : ∀ v ∈ values, v.KnownTo rs) :
    (∃ fault, c.invoke turns values = Exec.raise fault) ∨
      ∃ given, Fits h.params given ∧ (∀ v ∈ given, v.KnownTo rs) ∧
        c.invoke turns values = h.call turns given := by
  have hparams := (require_bind_eq_ok_iff.1 hc).1
  obtain ⟨d, hd, hdargs, -, heval⟩ := exists_fold hparams
  obtain rfl := Except.ok.inj (hc.symm.trans hd)
  obtain hrefused | ⟨env, rfl, hadmits, -, hinvoke⟩ :=
    c.invoke_cases (hdargs ▸ nodup_eraseDups _) turns values
  · exact .inl hrefused
  · -- the values of the parameters are those of the environment, and these have been checked
    have hread : ∀ e ∈ args, ∀ v ∈ e.vars, v.ty.admits (env v) = true ∧ (env v).KnownTo rs := by
      intro e he v hv
      have hmem : v ∈ c.args := by
        rw [hdargs, List.mem_eraseDups]
        exact List.mem_flatMap.2 ⟨e, he, hv⟩
      exact ⟨hadmits v hmem, hvalues _ (List.mem_map_of_mem hmem)⟩
    have hty : ∀ e ∈ args, e.ty ≠ .void := fun e he hvoid =>
      h.sig.noVoid (show Ty.void ∈ h.params from hparams ▸ hvoid ▸ List.mem_map_of_mem he)
    obtain ⟨given, hgiven, hknown, hrun⟩ := Expr.Plain.exists_mapM_eval hargs hty hread
    refine .inr ⟨given, hparams ▸ hgiven, hknown, hinvoke.trans ?_⟩
    rw [heval, hrun, pure_bind]

/-- A field that is found under a name stands in the place where it is found. -/
theorem Schema.getElem?_of_field_eq_ok {s : Schema} {name : String} {i : Nat} {field : Field}
    (h : s.field name = .ok (i, field)) : s.fields[i]? = some field := by
  unfold Schema.field Schema.field? at h
  split at h
  · next found hfound =>
    obtain rfl := Except.ok.inj h
    obtain ⟨⟨f, j⟩, hmem, hf⟩ := List.exists_of_findSome?_eq_some hfound
    dsimp only at hf
    split at hf
    · obtain ⟨rfl, rfl⟩ := Prod.mk.inj (Option.some.inj hf)
      exact List.mem_zipIdx_iff_getElem?.1 hmem
    · cases hf
  · cases h

namespace Closure

variable {rs : List Record} {s : Schema} {c : Closure} {values : List Value} {w : World}

/-- A native function that is applied to constants and parameters runs on arguments of its parameter
types, once the values of the parameters have been checked. -/
theorem exists_invoke_native {types : List Ty} {ret : Ty} {run : List Value → Exec Value}
    {args : List Expr} (hc : (do fold (← Handle.native types ret run) args) = .ok c)
    (hargs : ∀ e ∈ args, e.Plain rs) (turns : Nat) (hvalues : ∀ v ∈ values, v.KnownTo rs) :
    (∃ fault, c.invoke turns values = Exec.raise fault) ∨
      ∃ given, Fits types given ∧ (∀ v ∈ given, v.KnownTo rs) ∧
        c.invoke turns values = run given := by
  obtain ⟨h, hh, hfold⟩ := bind_eq_ok_iff.1 hc
  obtain ⟨sig, hsig, hh⟩ := bind_eq_ok_iff.1 hh
  obtain rfl := Except.ok.inj hh
  obtain ⟨rfl, -⟩ := Signature.ofTypes_eq_ok_iff.1 hsig
  exact exists_invoke_of_plain hfold hargs turns hvalues

/-- Creating a record from constants and parameters. -/
theorem steps_newInstance {args : List Expr} (hc : newInstance s args = .ok c)
    (hargs : ∀ e ∈ args, e.Plain rs) (turns : Nat) (hvalues : ∀ v ∈ values, v.KnownTo rs) :
    Exec.Steps rs w (c.invoke turns values) := by
  obtain ⟨fault, hrun⟩ | ⟨given, -, -, hrun⟩ := exists_invoke_native hc hargs turns hvalues
  · rw [hrun]
    exact .raise fault
  · rw [hrun]
    exact .instantiate s given

/-- Writing a field with constants and parameters for the record and the value. -/
theorem steps_setField {name : String} {object value : Expr}
    (hc : setField s name object value = .ok c) (hobject : object.Plain rs)
    (hvalue : value.Plain rs) (turns : Nat) (hvalues : ∀ v ∈ values, v.KnownTo rs) :
    Exec.Steps rs w (c.invoke turns values) := by
  obtain ⟨⟨index, field⟩, hfield, hc⟩ := bind_eq_ok_iff.1 hc
  obtain ⟨fault, hrun⟩ | ⟨given, hgiven, hknown, hrun⟩ := exists_invoke_native hc
    (List.forall_mem_cons.2 ⟨hobject, List.forall_mem_singleton.2 hvalue⟩) turns hvalues
  · rw [hrun]
    exact .raise fault
  · rw [hrun]
    -- the types of the arguments are two, so there are two arguments
    obtain _ | @⟨_, a, _, _, -, _ | @⟨_, b, _, _, hb, _ | _⟩⟩ := hgiven
    change Exec.Steps rs w (liftM (s.expectInstance a) >>= fun r => do
      r.set index b
      return .unit)
    cases hr : s.expectInstance a with
    | error fault => exact .raise fault
    | ok r =>
      obtain ⟨rfl, rfl⟩ := Schema.expectInstance_ok_iff.1 hr
      refine .set (hknown _ List.mem_cons_self r rfl) fun field' hfield' => ?_
      rw [Schema.getElem?_of_field_eq_ok hfield] at hfield'
      exact Option.some.inj hfield' ▸ hb

/-- What is read of a well-typed record is a value of the field's type. -/
theorem admits_of_getField {name : String} {object : Expr} {index : Nat} {field : Field}
    (hc : getField s name object = .ok c) (hfield : s.field name = .ok (index, field))
    (hobject : object.Plain rs) (turns : Nat) (hvalues : ∀ v ∈ values, v.KnownTo rs)
    (hw : w.Typed rs) {v : Value} {w' : World} (hrun : c.invoke turns values w = .ok v w') :
    field.ty.admits v = true := by
  obtain ⟨found, hfound, hc⟩ := bind_eq_ok_iff.1 hc
  obtain rfl := Except.ok.inj (hfield.symm.trans hfound)
  obtain ⟨fault, hinvoke⟩ | ⟨given, hgiven, hknown, hinvoke⟩ := exists_invoke_native hc
    (List.forall_mem_singleton.2 hobject) turns hvalues
  · rw [hinvoke] at hrun
    cases hrun
  · rw [hinvoke] at hrun
    obtain _ | @⟨_, a, _, _, -, _ | _⟩ := hgiven
    change (liftM (s.expectInstance a) >>= fun r => r.get index : Exec Value) w = _ at hrun
    cases hr : s.expectInstance a with
    | error fault =>
      rw [hr] at hrun
      cases hrun
    | ok r =>
      obtain ⟨rfl, rfl⟩ := Schema.expectInstance_ok_iff.1 hr
      rw [hr] at hrun
      change r.get index w = _ at hrun
      have hmem : r ∈ rs := hknown _ List.mem_cons_self r rfl
      exact (hw.typed r hmem).admits_of_getElem? (Record.getElem?_of_get_eq_ok hrun) field
        (Schema.getElem?_of_field_eq_ok hfield)

end Closure

end Splice
