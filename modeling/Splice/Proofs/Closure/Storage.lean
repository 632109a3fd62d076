import Splice.Closure.Application
import Splice.Closure.Array
import Splice.Closure.Record
import Splice.Proofs.Closure.Branching

/-!
# Closures over arrays and records

Reading and writing arrays and records is composed of native functions over variables. For each of
them: it is composed whenever the types of the variables are right, and then does to the values of
the variables what is done to arrays and records themselves.
-/

namespace Splice

namespace Value

/-- The element of an array at an index. -/
def getElement (array index : Value) : Exec Value := do
  let a ← array.expectArray
  a.get (← index.expectInt)

/-- Writes the element of an array at an index. -/
def setElement (array index v : Value) : Exec Value := do
  let a ← array.expectArray
  a.set (← index.expectInt) v
  return unit

/-- A copy of an array with another length. -/
def arrayCopyOf (array length : Value) : Exec Value := do
  let length ← ArrayRef.checkLength (← length.expectInt)
  return .array (← (← array.expectArray).copyOf length)

/-- The field of a record at a position. -/
def getField (record : Value) (s : Schema) (position : Nat) : Exec Value := do
  (← s.expectInstance record).get position

/-- Writes the field of a record at a position. -/
def setField (record : Value) (s : Schema) (position : Nat) (v : Value) : Exec Value := do
  (← s.expectInstance record).set position v
  return unit

end Value

/-- A closure reads none but given variables, and does under every environment what a program
does. -/
structure Closure.Computes (c : Closure) (vars : List Var) (ty : Ty) (x : Env → Exec Value) :
    Prop where
  args_subset : c.args ⊆ vars
  ty_eq : c.ty = ty
  eval_eq : ∀ turns env, c.eval turns env = x env

/-- A closure that computes something may be read among more variables. -/
theorem Closure.Computes.weaken {c : Closure} {vars more : List Var} {ty : Ty}
    {x : Env → Exec Value} (h : c.Computes vars ty x) (hmore : vars ⊆ more) :
    c.Computes more ty x :=
  ⟨List.Subset.trans h.args_subset hmore, h.ty_eq, h.eval_eq⟩

/-- A closure that computes something computes what comes to the same. -/
theorem Closure.Computes.congr {c : Closure} {vars : List Var} {ty : Ty} {x y : Env → Exec Value}
    (h : c.Computes vars ty x) (hxy : ∀ env, x env = y env) : c.Computes vars ty y := funext hxy ▸ h

/-- What a suffix starts with stands at its position, and the rest of it one further on. -/
theorem getElem?_and_drop_of_drop {l rest : List α} {i : Nat} {a : α} (h : l.drop i = a :: rest) :
    l[i]? = some a ∧ l.drop (i + 1) = rest := by
  rw [← List.head?_drop, ← List.tail_drop, h]
  exact ⟨rfl, rfl⟩

/-- Every field is found under its name. -/
theorem Schema.field_eq_ok {s : Schema} {i : Nat} {field : Field} (h : s.fields[i]? = some field) :
    s.field field.name = .ok (i, field) := by
  obtain ⟨before, after, hsplit, rfl⟩ : ∃ before after, s.fields = before ++ field :: after ∧
      before.length = i := by
    obtain ⟨hi, rfl⟩ := List.getElem?_eq_some_iff.1 h
    refine ⟨s.fields.take i, s.fields.drop (i + 1), ?_, List.length_take_of_le (Nat.le_of_lt hi)⟩
    rw [← List.drop_eq_getElem_cons, List.take_append_drop]
  have hdistinct := s.distinct
  rw [hsplit, List.map_append, List.nodup_append] at hdistinct
  -- names are distinct, so no field in front is taken for this one
  have hbefore : ∀ f ∈ before, f.name ≠ field.name := fun f hf =>
    hdistinct.2.2 _ (List.mem_map_of_mem hf) _ (by simp)
  have hfound : s.field? field.name = some (before.length, field) := by
    rw [Schema.field?, hsplit, List.zipIdx_append, List.findSome?_append,
      List.findSome?_eq_none_iff.2]
    · simp
    · rintro ⟨f, index⟩ hf
      exact if_neg (hbefore f (List.fst_mem_of_mem_zipIdx hf))
  rw [Schema.field, hfound]

namespace Closure

variable {array index value record : Var} {elem : Ty}

/-- A native function is applied to operands of its parameter types. -/
theorem exists_native_operands {types : List Ty} {args : List Expr}
    (htypes : args.map Expr.ty = types) (hvoid : Ty.void ∉ types) (ret : Ty)
    (run : List Value → Exec Value) :
    ∃ c, (do fold (← Handle.native types ret run) args) = .ok c ∧
      c.args ⊆ args.flatMap Expr.vars ∧ c.ty = ret ∧
      ∀ turns env, c.eval turns env = (do run (← args.mapM (Expr.eval turns env))) := by
  have hnative : Handle.native types ret run = .ok (.prim ⟨types, ret, hvoid⟩ run) :=
    bind_eq_ok_iff.2 ⟨_, Signature.ofTypes_of_notMem hvoid ret, rfl⟩
  obtain ⟨c, hc, hargs, hty, heval⟩ := exists_fold (h := .prim ⟨types, ret, hvoid⟩ run) htypes
  refine ⟨c, bind_eq_ok_iff.2 ⟨_, hnative, hc⟩, fun v hv => ?_, hty, heval⟩
  rwa [hargs, List.mem_eraseDups] at hv

/-- A native function is composed with operands of its parameter types. -/
theorem exists_of_native (types : List Ty) (args : List Expr) (htypes : args.map Expr.ty = types)
    (hvoid : Ty.void ∉ types) (ret : Ty) (run : List Value → Exec Value) :
    ∃ c, (do fold (← Handle.native types ret run) args) = .ok c :=
  (exists_native_operands htypes hvoid ret run).imp fun _ h => h.1

/-- A native function that has been applied to operands runs on their values. The closure reads each
variable once. -/
theorem eval_of_native {types : List Ty} {ret : Ty} {run : List Value → Exec Value}
    {args : List Expr} {c : Closure} (hc : (do fold (← Handle.native types ret run) args) = .ok c) :
    c.args.Nodup ∧
      ∀ turns env, c.eval turns env = (do run (← args.mapM (Expr.eval turns env))) := by
  obtain ⟨h, hh, hfold⟩ := bind_eq_ok_iff.1 hc
  obtain ⟨sig, -, hh⟩ := bind_eq_ok_iff.1 hh
  obtain rfl := Except.ok.inj hh
  obtain ⟨d, hd, hargs, -, heval⟩ := exists_fold (require_bind_eq_ok_iff.1 hfold).1
  obtain rfl := Except.ok.inj (hfold.symm.trans hd)
  exact ⟨hargs ▸ nodup_eraseDups _, heval⟩

/-- A native function is applied to variables of its parameter types. -/
theorem exists_native_fold {types : List Ty} {vars : List Var} (hvars : vars.map Var.ty = types)
    (hvoid : Ty.void ∉ types) (ret : Ty) (run : List Value → Exec Value) :
    ∃ c, (do fold (← Handle.native types ret run) (vars.map Expr.var)) = .ok c ∧
      c.Computes vars ret fun env => run (vars.map env) := by
  have htypes : (vars.map Expr.var).map Expr.ty = types := by
    rw [List.map_map, ← hvars]
    rfl
  obtain ⟨c, hc, hargs, hty, heval⟩ := exists_native_operands htypes hvoid ret run
  refine ⟨c, hc, fun v hv => ?_, hty, fun turns env => ?_⟩
  · simpa [List.flatMap_map, Expr.vars] using hargs hv
  · rw [heval, mapM_eval_vars, pure_bind]

/-- A constant is composed for every value of a type that has values. -/
theorem exists_constant {v : Value} (hty : v.staticTy ≠ .void)
    (hadmits : v.staticTy.admits v = true) :
    ∃ c, constant v = .ok c ∧ c.Computes [] v.staticTy fun _ => return v := by
  have hconstant : Handle.constant v.staticTy v =
      .ok (.prim ⟨[], v.staticTy, List.not_mem_nil⟩ fun _ => return v) := if_pos hadmits
  refine ⟨⟨.prim ⟨[], v.staticTy, List.not_mem_nil⟩ fun _ => return v, [], rfl⟩, ?_,
    List.Subset.refl _, rfl, fun _ _ => ?_⟩
  · rw [constant, constantTyped, if_neg hty]
    exact bind_eq_ok_iff.2 ⟨_, hconstant, wire_eq_ok_iff.2 ⟨rfl, rfl⟩⟩
  · rw [eval, Handle.call]

/-- A fixed value is one of its type, which the closure gives without doing anything. Nothing at all
is given for a type without values. -/
theorem eval_of_constantTyped {ty : Ty} {v : Value} {c : Closure}
    (hc : constantTyped ty v = .ok c) :
    c.args = [] ∧ c.ty = ty ∧ (ty ≠ .void → ty.admits v = true) ∧
      ∀ turns env, c.eval turns env = return if ty = .void then .unit else v := by
  by_cases hty : ty = .void
  · obtain ⟨d, hd, hdty, hdargs, heval⟩ := exists_constantVoid
    rw [constantTyped, if_pos hty, hd] at hc
    obtain rfl := Except.ok.inj hc
    rw [if_pos hty]
    exact ⟨hdargs, hdty.trans hty.symm, absurd hty, heval⟩
  · rw [constantTyped, if_neg hty] at hc
    obtain ⟨h, hh, hwire⟩ := bind_eq_ok_iff.1 hc
    obtain ⟨rfl, hargs⟩ := wire_eq_ok_iff.1 hwire
    unfold Handle.constant at hh
    split at hh
    · next hadmits =>
      have hhandle := Except.ok.inj hh
      refine ⟨hargs, congrArg Handle.ret hhandle.symm, fun _ => hadmits, fun turns env => ?_⟩
      rw [eval, ← hhandle, if_neg hty]
      rfl
    · cases hh

/-- A conversion of the result is carried out on what the closure gives. -/
theorem Computes.exists_cast {c : Closure} {vars : List Var} {ty target : Ty}
    {x : Env → Exec Value} {conversion : Conversion} (h : c.Computes vars ty x)
    (hbetween : Conversion.between? ty target = some conversion) :
    ∃ d, c.cast target = .ok d ∧
      d.Computes vars target fun env => (do conversion.apply (← x env)) := by
  obtain ⟨d, hd, hdty, hdargs, heval⟩ := c.exists_cast (h.ty_eq.symm ▸ hbetween)
  refine ⟨d, hd, hdargs.symm ▸ h.args_subset, hdty, fun turns env => ?_⟩
  rw [heval, h.eval_eq]

/-! ## Arrays -/

/-- Reading an element is composed for an array and an index, and reads the array at it. -/
theorem exists_getElement (harray : array.ty = .array elem) (hindex : index.ty = .int) :
    ∃ c, getElement array index = .ok c ∧
      c.Computes [array, index] elem fun env => (env array).getElement (env index) := by
  have htypes : [array, index].map Var.ty = [.array elem, .int] := by simp [harray, hindex]
  rw [getElement, arrayElement, Expr.ty, harray]
  exact exists_native_fold htypes (by simp) elem _

/-- Writing an element is composed for a value of the element type, and writes it to the array. -/
theorem exists_setElement (harray : array.ty = .array elem) (hindex : index.ty = .int)
    (hvalue : value.ty = elem) (helem : elem ≠ .void) :
    ∃ c, setElement array index value = .ok c ∧
      c.Computes [array, index, value] .void fun env =>
        (env array).setElement (env index) (env value) := by
  have htypes : [array, index, value].map Var.ty = [.array elem, .int, elem] := by
    simp [harray, hindex, hvalue]
  rw [setElement, arrayElement, Expr.ty, harray]
  exact exists_native_fold htypes (by simp [helem.symm]) .void _

/-- Copying an array is composed for an array and a length, and copies the one to the other. -/
theorem exists_arrayCopyOf {length : Var} (harray : array.ty = .array elem)
    (hlength : length.ty = .int) :
    ∃ c, arrayCopyOf array length = .ok c ∧
      c.Computes [array, length] (.array elem) fun env =>
        (env array).arrayCopyOf (env length) := by
  have htypes : [array, length].map Var.ty = [.array elem, .int] := by simp [harray, hlength]
  rw [arrayCopyOf, arrayElement, Expr.ty, harray]
  exact exists_native_fold htypes (by simp) (.array elem) _

/-! ## Records -/

/-- Reading a field is composed for a record of the schema, and reads it at its position. -/
theorem exists_getField {s : Schema} {i : Nat} {field : Field} (hfield : s.fields[i]? = some field)
    (hrecord : record.ty = s.ty) :
    ∃ c, getField s field.name record = .ok c ∧
      c.Computes [record] field.ty fun env => (env record).getField s i := by
  have htypes : [record].map Var.ty = [s.ty] := by simp [hrecord]
  rw [getField, Schema.field_eq_ok hfield]
  exact exists_native_fold htypes (by simp [Schema.ty]) field.ty _

/-- Making a record is composed for values of the field types, and makes it of them. -/
theorem exists_newInstance {s : Schema} {values : List Var}
    (hvalues : values.map Var.ty = s.fieldTypes) :
    ∃ c, newInstance s (values.map Expr.var) = .ok c ∧
      c.Computes values s.ty fun env => s.instantiate (values.map env) :=
  exists_native_fold hvalues s.void_notMem_fieldTypes s.ty s.instantiate

end Closure

end Splice
