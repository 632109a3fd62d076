import Splice.Proofs.Columns.TypedRecords
import Splice.Proofs.Fieldwise.HashCode
import Splice.Proofs.Fieldwise.Order
import Splice.Proofs.Fieldwise.Sum
import Splice.Proofs.Fieldwise.Text

/-!
# Values that only pass for records

A record type is a name, so null and the records of another schema of that name are arguments of a
field-wise operation. None of the operations looks at its arguments as such: what is no record of
the schema is found out when a field is read from it. The first read refuses it, before anything is
written, and the refusal is that of the whole operation. Where an operation has no field to read of
an argument, it has nothing to refuse it by.
-/

namespace Splice

/-- A value passes for a record of a schema where only types are checked, without being one. -/
structure Schema.PassesFor (s : Schema) (v : Value) : Prop where
  admits : s.ty.admits v = true
  not_instance : s.isInstance v = false

/-- Null and the records of other schemas of the same name pass for records, and nothing else. -/
theorem Schema.passesFor_iff {s : Schema} {v : Value} :
    s.PassesFor v ↔ v = .null ∨ ∃ r, v = .record r ∧ r.schema ≠ s ∧ r.schema.name = s.name := by
  constructor
  · rintro ⟨hadmits, hinstance⟩
    cases v with
    | null => exact .inl rfl
    | record r =>
      exact .inr ⟨r, rfl, of_decide_eq_false hinstance, of_decide_eq_true hadmits⟩
    | _ => exact nomatch hadmits
  · rintro (rfl | ⟨r, rfl, hne, hname⟩)
    · exact ⟨rfl, rfl⟩
    · exact ⟨decide_eq_true hname, decide_eq_false hne⟩

/-- What passes for a record is the same as itself and nothing else. -/
theorem Schema.PassesFor.same_iff {s : Schema} {v u : Value} (h : s.PassesFor v) :
    (v.same u = true ↔ v = u) ∧ (u.same v = true ↔ v = u) := by
  obtain rfl | ⟨r, rfl, -⟩ := passesFor_iff.1 h
  · cases u <;> simp [Value.same, Value.identical]
  · cases u <;> simp [Value.same, Value.identical]
    exact eq_comm

/-- A value is no record of the schema, or one that has all of its fields. -/
def Schema.Reads (s : Schema) (w : World) (v : Value) : Prop :=
  ∀ r, v = .record r → r.schema = s → r.Complete w

/-- What passes for a record without being one is no record of the schema at all. -/
theorem Schema.PassesFor.reads {s : Schema} {v : Value} (h : s.PassesFor v) (w : World) :
    s.Reads w v := by
  rintro r rfl hr
  exact absurd hr (of_decide_eq_false h.not_instance)

/-! ## Runs that refuse -/

/-- A run fails because it has found null, or an object of another kind, where an object of one kind
is needed. It has taken nothing from the world but identities. -/
def Exec.Refuses (x : Exec α) (w : World) : Prop :=
  ∃ e k, x w = .thrown e { w with nextId := w.nextId + k } ∧ e.IsRefusal

namespace Exec.Refuses

variable {x : Exec α} {f : α → Exec β} {w : World}

/-- What follows a refusal is not reached. -/
theorem bind (h : x.Refuses w) : (x >>= f).Refuses w := by
  obtain ⟨e, k, he, hrefusal⟩ := h
  exact ⟨e, k, bind_of_thrown he, hrefusal⟩

/-- What comes before a refusal may take identities. -/
theorem after {a : α} {k : Nat} (hx : x w = .ok a { w with nextId := w.nextId + k })
    (hf : (f a).Refuses { w with nextId := w.nextId + k }) : (x >>= f).Refuses w := by
  obtain ⟨e, k', he, hrefusal⟩ := hf
  refine ⟨e, k + k', (bind_of_ok hx).trans ?_, hrefusal⟩
  rw [he, Nat.add_assoc]

/-- A refusal depends on the run in this world alone. -/
theorem congr {x' : Exec α} (h : x'.Refuses w) (hx : x w = x' w) : x.Refuses w := by
  obtain ⟨e, k, he, hrefusal⟩ := h
  exact ⟨e, k, hx.trans he, hrefusal⟩

/-- A refused run gives nothing. -/
theorem ne_ok (h : x.Refuses w) (a : α) (w' : World) : x w ≠ .ok a w' := by
  obtain ⟨e, k, he, -⟩ := h
  rw [he]
  exact nofun

/-- A list of tests is refused with its first test. -/
theorem holdAll {test : Exec Value} (h : test.Refuses w) (rest : List (Exec Value)) :
    (Exec.holdAll (test :: rest)).Refuses w := by
  cases rest with
  | nil => exact h
  | cons next rest => exact h.bind

end Exec.Refuses

section

variable {s : Schema} {x y : Value} {i : Nat} {w : World}

/-- A field is not read from what is no record of the schema. -/
theorem Value.getField_refuses (hx : s.isInstance x = false) : (x.getField s i).Refuses w := by
  obtain ⟨e, he, hrefusal⟩ := getField_apply_of_isInstance_eq_false (i := i) (w := w) hx
  exact ⟨e, 1, he, hrefusal⟩

/-- A field is read from two values, of which one is no record of the schema. -/
theorem Value.getFields_refuses {f : Value → Value → Exec α}
    (h : s.isInstance x = false ∨ s.isInstance y = false) (hx : s.Reads w x)
    (hi : i < s.fields.length) : (do f (← x.getField s i) (← y.getField s i)).Refuses w := by
  -- the fields are read from left to right, so the first operand decides unless it is a record
  cases hinstance : s.isInstance x with
  | false => exact (getField_refuses hinstance).bind
  | true =>
    obtain ⟨r, rfl, hr⟩ := Schema.exists_record_of_isInstance hinstance
    have hy : s.isInstance y = false :=
      h.resolve_left fun hfalse => Bool.false_ne_true (hfalse.symm.trans hinstance)
    have hread := getField_apply_of_complete hr (hx r rfl hr) hi
    exact .after (k := 0) hread (getField_refuses hy).bind

end

namespace Fieldwise

open Compose (Gives)
open Handle (argument)

section

variable {s : Schema} {x y : Value} {w w' : World}

/-- There is a first position. -/
theorem exists_range_eq_cons (hfields : s.fields ≠ []) :
    ∃ rest, List.range s.fields.length = 0 :: rest := by
  obtain ⟨f, fs, hfs⟩ := List.exists_cons_of_ne_nil hfields
  rw [hfs, List.length_cons, List.range_succ_eq_map]
  exact ⟨_, rfl⟩

/-! ## What each operation reads first -/

/-- The code of the fields in front is the start for those behind, so its refusal is that of all. -/
theorem foldl_mixField_refuses {hash : Exec Value} (h : hash.Refuses w) (positions : List Nat) :
    (positions.foldl (mixField s x) hash).Refuses w := by
  induction positions generalizing hash with
  | nil => exact h
  | cons i rest ih => exact ih h.bind

/-- Hashing reads the first field first, so it refuses what is no record. -/
theorem mixAll_refuses (hx : s.isInstance x = false) (hfields : s.fields ≠ []) :
    (mixAll s x).Refuses w := by
  obtain ⟨rest, hrest⟩ := exists_range_eq_cons hfields
  have hfirst : (mixField s x (return .int 0) 0).Refuses w :=
    .after (k := 0) rfl (.after (k := 0) rfl (Value.getField_refuses hx).bind)
  rw [mixAll, hrest, List.foldl_cons]
  exact foldl_mixField_refuses hfirst rest

/-- The text of what is no record is refused, once the name of its first field has been written. -/
theorem write_refuses (hx : s.isInstance x = false) (hfields : s.fields ≠ []) :
    (write s x).Refuses w := by
  obtain ⟨f, fs, hfs⟩ := List.exists_cons_of_ne_nil hfields
  rw [write, hfs, List.zipIdx_cons]
  -- the name of the first field is appended before its value is read
  exact .bind (.bind (.after (k := 1) rfl (Value.getField_refuses hx).bind))

/-- The sum refuses what is no record where there is an integer field to read. -/
theorem sumAll_refuses (hx : s.isInstance x = false) (hint : ∃ f ∈ s.fields, f.ty = .int) :
    (sumAll s x).Refuses w := by
  obtain ⟨f, hf, hty⟩ := hint
  obtain ⟨i, hi⟩ := List.mem_iff_getElem?.1 hf
  have hmem : (f, i) ∈ fieldsWhere (·.ty = .int) s :=
    mem_fieldsWhere_iff.2 ⟨hi, decide_eq_true hty⟩
  obtain ⟨first, rest, hrest⟩ := List.exists_cons_of_ne_nil (List.ne_nil_of_mem hmem)
  rw [sumAll, hrest, List.map_cons]
  exact (Value.getField_refuses hx).bind

/-- Values that are not the same are compared by their first fields first. -/
theorem order_refuses (h : s.isInstance x = false ∨ s.isInstance y = false) (hx : s.Reads w x)
    (hfields : s.fields ≠ []) (hsame : x.same y = false) : (order s x y).Refuses w := by
  obtain ⟨rest, hrest⟩ := exists_range_eq_cons hfields
  have hfirst : (fieldsOrder s x y (0 :: rest)).Refuses w :=
    .bind (Value.getFields_refuses h hx (List.length_pos_iff.2 hfields))
  rwa [order_of_not_same hsame, hrest]

/-- The addition refuses two values of which one is no record where there is a numeric field to
read. -/
theorem addAll_refuses (h : s.isInstance x = false ∨ s.isInstance y = false) (hx : s.Reads w x)
    (hnumeric : ∃ i, NumericAt s i) : (addAll s x y).Refuses w := by
  obtain ⟨i, hi⟩ := hnumeric
  obtain ⟨first, rest, hrest⟩ :=
    List.exists_cons_of_ne_nil (List.ne_nil_of_mem (mem_map_numericFields_iff.2 hi))
  obtain ⟨field, hfield, -⟩ : NumericAt s first :=
    mem_map_numericFields_iff.1 (hrest ▸ List.mem_cons_self)
  rw [addAll, hrest]
  exact .bind (.bind (Value.getFields_refuses h hx (List.getElem?_eq_some_iff.1 hfield).1))

/-- What is no record of the schema is equal to no value. -/
theorem equality_ne_true_of_not_instance (hy : s.isInstance y = false) :
    equality s x y w ≠ .ok (.bool true) w' := by
  rw [equality_of_not_instance hy]
  exact nofun

/-- The first operand is not tested, but a field is read from it. -/
theorem equality_refuses (hx : s.PassesFor x) (hy : s.isInstance y = true)
    (hfields : s.fields ≠ []) : (equality s x y).Refuses w := by
  obtain ⟨b, rfl, hb⟩ := Schema.exists_record_of_isInstance hy
  obtain ⟨rest, hrest⟩ := exists_range_eq_cons hfields
  have hfirst : (fieldEqualities s x (.record b)).Refuses w := by
    rw [fieldEqualities, hrest, List.map_cons]
    exact .holdAll (Value.getField_refuses hx.not_instance).bind _
  -- a record is not the same as what only passes for one
  have hdiffer : ¬ x.same (.record b) = true := fun hsame => by
    obtain rfl := hx.same_iff.1.1 hsame
    exact Bool.false_ne_true (hx.not_instance.symm.trans hy)
  rwa [equality_of_instance hb, if_neg hdiffer]

/-- What only passes for a record is equal to no value, as its first field is asked for. -/
theorem equality_ne_true_of_passesFor (hx : s.PassesFor x) (hfields : s.fields ≠ []) :
    equality s x y w ≠ .ok (.bool true) w' := by
  -- a second operand that is no record makes the answer false, a record makes it a refusal
  cases hy : s.isInstance y with
  | false => exact equality_ne_true_of_not_instance hy
  | true => exact (equality_refuses hx hy hfields).ne_ok _ _

end

end Fieldwise

/-! ## Appending to a list -/

/-- A list of a factory refuses what only passes for a record, and has the rows that it had. It has
written none but its own arrays. -/
theorem ColumnAccess.Reaches.exists_push_refused {access : ColumnAccess} {s : Schema} {w : World}
    {lists : ColumnLists} {k : Nat} {l : ColumnList} {rows : List (List Value)} {x : Value}
    (hworks : access.Works s) (hfields : s.fields ≠ []) (h : access.Reaches w lists)
    (hk : lists[k]? = some (l, rows)) (hx : s.PassesFor x) :
    ∃ l' e w', l.push x w = .ok (l', some e) w' ∧ access.Reaches w' (lists.set k (l', rows)) ∧
      w.AgreesButArrays w' ∧
      (s.fields.length ≤ 0x80000000 → (l.HasRoom → e.IsRefusal) ∧
        ∀ a < w.arrays.size, ¬ l.Owns w a → w'.arrays[a]? = w.arrays[a]?) := by
  have htrusts : s.Trusts w x := fun hinstance =>
    absurd hinstance (Bool.eq_false_iff.1 hx.not_instance)
  -- with more fields than positions the list fails before it looks at what it gets
  rcases Nat.lt_or_ge (0x80000000) s.fields.length with hwide | hbound
  · obtain ⟨hstuck, -⟩ := h.stuck hworks hwide _ (List.mem_of_getElem? hk)
    obtain ⟨e, w', hrun⟩ := hstuck.exists_push hwide x w
    exact ⟨l, e, w', hrun, h.pushed hk (hworks.schema_eq ▸ htrusts) hrun,
      Works.onArrays_push hstuck.works x w w' (by rw [hrun]; rfl),
      fun hbound => absurd hbound (Nat.not_le_of_lt hwide)⟩
  · obtain ⟨store, hseparate⟩ := h.exists_separate hworks hbound hfields
    have hholds := hseparate.holds hk
    obtain ⟨l', failure, w', store', hrun, hiff, hrefusal, -, hevolves⟩ :=
      hholds.exists_push hbound hfields htrusts
    -- the row was not taken, so there is a failure, and the store says which
    obtain ⟨e, rfl⟩ : ∃ e, failure = some e := Option.ne_none_iff_exists'.1 fun hpushed =>
      absurd (hiff.1 hpushed).1 (Bool.eq_false_iff.1 hx.not_instance)
    refine ⟨l', e, w', hrun, h.pushed hk (hworks.schema_eq ▸ htrusts) hrun,
      Works.onArrays_push hholds.works x w w' (by rw [hrun]; rfl),
      fun _ => ⟨fun hroom => hrefusal hx.admits hroom e rfl, fun a ha howned => ?_⟩⟩
    -- the arrays that changed are among those that the list owns
    exact hevolves.changesOnly.kept a ha fun hmem => howned (hholds.owns_of_mem hmem)

/-! ## All operations -/

/-- What a handle does not return for any arguments, it does not return where these are checked. -/
theorem Handle.Computes.invoke_ne_ok {h : Handle} {types : List Ty} {ret : Ty}
    {z : List Value → Exec Value} (hh : h.Computes types ret z) {turns : Nat} {args : List Value}
    {v : Value} {w w' : World} (hz : z args w ≠ .ok v w') : h.invoke turns args w ≠ .ok v w' := by
  -- the arguments either have the types of the operands or are refused before the run
  by_cases hfits : Fits types args
  · rwa [hh.invoke_apply hfits]
  · obtain ⟨e, he⟩ : ∃ e, h.invoke turns args w = .thrown e _ := hh.exists_invoke_thrown hfits
    rw [he]
    exact nofun

namespace Fieldwise

open Compose (Gives)
open Handle (argument)

/-- What passes for a record of a schema without being one is refused by each operation that reads a
field of it, and nothing but identities has been taken from the world then. It is refused whichever
of two operands it is, except that its comparison with itself is a tie. Field-wise equality does not
hold of it. A list in columns refuses it unless there are more fields or rows than positions. The
list fails then as well, and either way no list has other rows than before. -/
theorem receivers_are_refused (s : Schema) (σ : Supply) :
    (∃ h σ', Gives (hashCode s) σ h σ' ∧ ∀ x, s.PassesFor x → s.fields ≠ [] →
      ∀ turns w, (h.invoke turns [x]).Refuses w) ∧
    (∃ h σ', Gives (toText s) σ h σ' ∧ ∀ x, s.PassesFor x → s.fields ≠ [] →
      ∀ turns w, (h.invoke turns [x]).Refuses w) ∧
    (∃ h σ', Gives (sumFields s) σ h σ' ∧ ∀ x, s.PassesFor x → (∃ f ∈ s.fields, f.ty = .int) →
      ∀ turns w, (h.invoke turns [x]).Refuses w) ∧
    (∃ h σ', Gives (compare s) σ h σ' ∧ ∀ x, s.PassesFor x → ∀ turns w,
      h.invoke turns [x, x] w = .ok (.int 0) w ∧
      (s.fields ≠ [] → ∀ y, s.ty.admits y = true → s.Reads w y → x ≠ y →
        (h.invoke turns [x, y]).Refuses w ∧ (h.invoke turns [y, x]).Refuses w)) ∧
    (∃ h σ', Gives (addCounters s) σ h σ' ∧ ∀ x, s.PassesFor x → (∃ i, NumericAt s i) →
      ∀ turns w y, s.ty.admits y = true → s.Reads w y →
        (h.invoke turns [x, y]).Refuses w ∧ (h.invoke turns [y, x]).Refuses w) ∧
    (∃ h σ', Gives (equals s) σ h σ' ∧ ∀ x, s.PassesFor x → ∀ turns y w w',
      h.invoke turns [y, x] w ≠ .ok (.bool true) w' ∧
      (s.fields ≠ [] → h.invoke turns [x, y] w ≠ .ok (.bool true) w')) ∧
    ∃ access σ', Gives (ColumnAccess.compose s) σ access σ' ∧
      ∀ w lists, access.Reaches w lists → ∀ k l rows, lists[k]? = some (l, rows) →
        ∀ x, s.PassesFor x → s.fields ≠ [] →
          ∃ l' e w', l.push x w = .ok (l', some e) w' ∧
            (∀ p ∈ lists.set k (l', rows), p.1.Refines s w' p.2) ∧ w.AgreesButArrays w' ∧
            (s.fields.length ≤ 0x80000000 → (l.HasRoom → e.IsRefusal) ∧
              ∀ a < w.arrays.size, ¬ l.Owns w a → w'.arrays[a]? = w.arrays[a]?) := by
  refine ⟨?_, ?_, ?_, ?_, ?_, ?_, ?_⟩
  · obtain ⟨h, σ', hgives, hcomputes⟩ := exists_hashCode s σ
    refine ⟨h, σ', hgives, fun x hx hfields turns w => ?_⟩
    exact (mixAll_refuses hx.not_instance hfields).congr
      (hcomputes.invoke_apply (.cons hx.admits .nil))
  · obtain ⟨h, σ', hgives, hcomputes⟩ := exists_toText s σ
    refine ⟨h, σ', hgives, fun x hx hfields turns w => ?_⟩
    exact (write_refuses hx.not_instance hfields).congr
      (hcomputes.invoke_apply (.cons hx.admits .nil))
  · obtain ⟨h, σ', hgives, hcomputes⟩ := exists_sumFields s σ
    refine ⟨h, σ', hgives, fun x hx hint turns w => ?_⟩
    exact (sumAll_refuses hx.not_instance hint).congr
      (hcomputes.invoke_apply (.cons hx.admits .nil))
  · obtain ⟨h, σ', hgives, hcomputes⟩ := exists_compare s σ
    refine ⟨h, σ', hgives, fun x hx turns w => ⟨?_, fun hfields y hy hreads hne => ?_⟩⟩
    · have hself : order s x x = return .int 0 := order_of_same (hx.same_iff.1.2 rfl)
      exact (hcomputes.invoke_apply (.cons hx.admits (.cons hx.admits .nil))).trans
        (congrFun hself w)
    · have hdiffer : x.same y = false ∧ y.same x = false :=
        ⟨Bool.eq_false_iff.2 fun h => hne (hx.same_iff.1.1 h),
          Bool.eq_false_iff.2 fun h => hne (hx.same_iff.2.1 h)⟩
      exact ⟨(order_refuses (.inl hx.not_instance) (hx.reads w) hfields hdiffer.1).congr
          (hcomputes.invoke_apply (.cons hx.admits (.cons hy .nil))),
        (order_refuses (.inr hx.not_instance) hreads hfields hdiffer.2).congr
          (hcomputes.invoke_apply (.cons hy (.cons hx.admits .nil)))⟩
  · obtain ⟨h, σ', hgives, hcomputes⟩ := exists_addCounters s σ
    refine ⟨h, σ', hgives, fun x hx hnumeric turns w y hy hreads => ⟨?_, ?_⟩⟩
    · exact (addAll_refuses (.inl hx.not_instance) (hx.reads w) hnumeric).congr
        (hcomputes.invoke_apply (.cons hx.admits (.cons hy .nil)))
    · exact (addAll_refuses (.inr hx.not_instance) hreads hnumeric).congr
        (hcomputes.invoke_apply (.cons hy (.cons hx.admits .nil)))
  · obtain ⟨h, σ', hgives, hcomputes⟩ := exists_equals s σ
    refine ⟨h, σ', hgives, fun x hx turns y w w' => ⟨?_, fun hfields => ?_⟩⟩
    · exact hcomputes.invoke_ne_ok (equality_ne_true_of_not_instance hx.not_instance)
    · exact hcomputes.invoke_ne_ok (equality_ne_true_of_passesFor hx hfields)
  · obtain ⟨access, σ', hgives, hworks⟩ := ColumnAccess.exists_compose s σ
    refine ⟨access, σ', hgives, fun w lists hreaches k l rows hk x hx hfields => ?_⟩
    obtain ⟨l', e, w', hrun, hreaches', hagrees, hbounded⟩ :=
      hreaches.exists_push_refused hworks hfields hk hx
    exact ⟨l', e, w', hrun, fun p hp => hreaches'.refines hworks hfields hp, hagrees, hbounded⟩

/-- Null and a record of another schema of the same name, for a schema with one integer field. -/
theorem receivers_are_refused_of_count :
    let s : Schema := ⟨0, "Count", [⟨"count", .int⟩], by decide, by decide⟩
    let other : Schema := ⟨1, "Count", [], by decide, by decide⟩
    let w : World := { records := #[[.int 5], []] }
    let own : Value := .record ⟨s, 0⟩
    let foreign : Value := .record ⟨other, 1⟩
    (∃ h σ, Gives (hashCode s) {} h σ ∧ (h.invoke 0 [.null]).Refuses w) ∧
    (∃ h σ, Gives (toText s) {} h σ ∧ (h.invoke 0 [foreign]).Refuses w) ∧
    (∃ h σ, Gives (sumFields s) {} h σ ∧ (h.invoke 0 [.null]).Refuses w) ∧
    (∃ h σ, Gives (compare s) {} h σ ∧ h.invoke 0 [foreign, foreign] w = .ok (.int 0) w ∧
      (h.invoke 0 [foreign, .null]).Refuses w ∧ (h.invoke 0 [own, foreign]).Refuses w) ∧
    (∃ h σ, Gives (addCounters s) {} h σ ∧ (h.invoke 0 [own, .null]).Refuses w) ∧
    (∃ h σ, Gives (equals s) {} h σ ∧ ∀ w', h.invoke 0 [foreign, own] w ≠ .ok (.bool true) w') ∧
    ∃ access σ l l' e w₁ w₂, Gives (ColumnAccess.compose s) {} access σ ∧
      access.newList w = .ok l w₁ ∧ l.push foreign w₁ = .ok (l', some e) w₂ ∧ e.IsRefusal ∧
      l'.length = 0 := by
  intro s other w own foreign
  have hnull : s.PassesFor .null := ⟨rfl, rfl⟩
  have hforeign : s.PassesFor foreign := ⟨by decide, by decide⟩
  have hfields : s.fields ≠ [] := List.cons_ne_nil _ _
  have hint : ∃ f ∈ s.fields, f.ty = .int := ⟨_, List.mem_cons_self, rfl⟩
  have hnumeric : ∃ i, NumericAt s i := ⟨0, _, rfl, rfl⟩
  have hown : s.ty.admits own = true := by decide
  have hreads : s.Reads w own := by
    rintro r hr -
    obtain rfl := Value.record.inj hr
    decide
  obtain ⟨⟨hash, σ₁, hhash, hash_refuses⟩, ⟨text, σ₂, htext, text_refuses⟩,
    ⟨sum, σ₃, hsum, sum_refuses⟩, ⟨order, σ₄, horder, order_law⟩, ⟨add, σ₅, hadd, add_refuses⟩,
    ⟨same, σ₆, hsame, same_law⟩, ⟨access, σ₇, haccess, push_refused⟩⟩ := receivers_are_refused s {}
  obtain ⟨htie, hrefuses⟩ := order_law foreign hforeign 0 w
  have hne : foreign ≠ own := fun heq => absurd (Value.record.inj heq) (by decide)
  refine ⟨⟨hash, σ₁, hhash, hash_refuses _ hnull hfields 0 w⟩,
    ⟨text, σ₂, htext, text_refuses _ hforeign hfields 0 w⟩,
    ⟨sum, σ₃, hsum, sum_refuses _ hnull hint 0 w⟩,
    ⟨order, σ₄, horder, htie, (hrefuses hfields .null rfl (hnull.reads w) nofun).1,
      (hrefuses hfields own hown hreads hne).2⟩,
    ⟨add, σ₅, hadd, (add_refuses _ hnull hnumeric 0 w own hown hreads).2⟩,
    ⟨same, σ₆, hsame, fun w' => (same_law _ hforeign 0 own w w').2 hfields⟩, ?_⟩
  obtain ⟨access', σ', haccess', hworks⟩ := ColumnAccess.exists_compose s {}
  obtain ⟨rfl, rfl⟩ := haccess.unique haccess'
  obtain ⟨l, w₁, store, hnew, hholds, -⟩ := hworks.exists_newList w
  have hreaches : access.Reaches w₁ [(l, [])] :=
    (ColumnAccess.Reaches.start w).created hnew
  obtain ⟨l', e, w₂, hpush, hrefines, -, hbounded⟩ :=
    push_refused w₁ _ hreaches 0 l [] rfl foreign hforeign hfields
  have hroom : l.HasRoom := .inr (by
    rw [ColumnList.nextCapacity, hholds.length_eq]
    decide)
  exact ⟨access, σ₇, l, l', e, w₁, w₂, haccess, hnew, hpush, (hbounded (by decide)).1 hroom,
    (hrefines (l', []) List.mem_cons_self).length_eq⟩

/-- Null is not refused where no field is read from it: the comparison of null with itself is a tie,
a text has nothing to add up, and a schema without fields has nothing to read at all. -/
theorem null_is_accepted_unread :
    let s : Schema := ⟨0, "Tag", [⟨"name", .str⟩], by decide, by decide⟩
    let t : Schema := ⟨1, "Mark", [], by decide, by decide⟩
    let w : World := { records := #[[]] }
    (s.PassesFor .null ∧ t.PassesFor .null) ∧
    (∃ h σ, Gives (compare s) {} h σ ∧ h.invoke 0 [.null, .null] w = .ok (.int 0) w) ∧
    (∃ h σ, Gives (sumFields s) {} h σ ∧ h.invoke 0 [.null] w = .ok (.int 0) w) ∧
    (∃ h σ, Gives (addCounters s) {} h σ ∧ h.invoke 0 [.null, .null] w = .ok .unit w) ∧
    (∃ h σ, Gives (hashCode t) {} h σ ∧ h.invoke 0 [.null] w = .ok (.int 0) w) ∧
    (∃ h σ, Gives (toText t) {} h σ ∧
      h.invoke 0 [.null] w = .ok (.str 0 "Mark\x7b\x7d") { w with nextId := 1 }) ∧
    (∃ h σ, Gives (equals t) {} h σ ∧
      h.invoke 0 [.null, .record ⟨t, 0⟩] w = .ok (.bool true) w) ∧
    ∃ access σ l l' w₁ w₂, Gives (ColumnAccess.compose t) {} access σ ∧
      access.newList w = .ok l w₁ ∧ l.push .null w₁ = .ok (l', none) w₂ ∧ l'.length = 1 := by
  intro s t w
  refine ⟨⟨⟨rfl, rfl⟩, ⟨rfl, rfl⟩⟩, ?_, ?_, ?_, ?_, ?_, ?_, ?_⟩
  · obtain ⟨h, σ, hgives, hcomputes⟩ := exists_compare s {}
    exact ⟨h, σ, hgives, hcomputes.invoke_apply (.cons rfl (.cons rfl .nil))⟩
  · obtain ⟨h, σ, hgives, hcomputes⟩ := exists_sumFields s {}
    exact ⟨h, σ, hgives, hcomputes.invoke_apply (.cons rfl .nil)⟩
  · obtain ⟨h, σ, hgives, hcomputes⟩ := exists_addCounters s {}
    exact ⟨h, σ, hgives, hcomputes.invoke_apply (.cons rfl (.cons rfl .nil))⟩
  · obtain ⟨h, σ, hgives, hcomputes⟩ := exists_hashCode t {}
    exact ⟨h, σ, hgives, hcomputes.invoke_apply (.cons rfl .nil)⟩
  · obtain ⟨h, σ, hgives, hcomputes⟩ := exists_toText t {}
    exact ⟨h, σ, hgives, hcomputes.invoke_apply (.cons rfl .nil)⟩
  · obtain ⟨h, σ, hgives, hcomputes⟩ := exists_equals t {}
    exact ⟨h, σ, hgives, (hcomputes.invoke_apply (.cons rfl (.cons rfl .nil))).trans rfl⟩
  · obtain ⟨access, σ, hgives, hworks⟩ := ColumnAccess.exists_compose t {}
    obtain ⟨l, w₁, store, hnew, hholds, -⟩ := hworks.exists_newList w
    have hroom : l.HasRoom := .inr (by
      rw [ColumnList.nextCapacity, hholds.length_eq]
      decide)
    obtain ⟨l₁, w₂, store', hreserve, h₁, hlt, -⟩ := hholds.exists_reserve (by decide) hroom
    have hargs : Fits [ColumnAccess.columnsTy, .int, t.ty]
        [l₁.columns, .int (Int32.ofNat l₁.length), .null] :=
      (ColumnList.fits_args h₁.columns_eq _).append (.cons rfl .nil)
    -- without a field there is no statement
    have hwrite : l₁.access.write.invoke 0 [l₁.columns, .int (Int32.ofNat l₁.length), .null] w₂ =
        .ok .unit w₂ := h₁.works.write_computes.invoke_apply hargs
    exact ⟨access, σ, l, _, w₁, w₂, hgives, hnew, ColumnList.push_apply_of_ok hreserve
      (Nat.lt_trans hlt h₁.capacity_lt) hwrite, congrArg (· + 1) h₁.length_eq⟩

end Fieldwise

end Splice
