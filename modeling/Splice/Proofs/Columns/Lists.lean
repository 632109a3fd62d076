import Splice.Proofs.Columns.Stored

/-!
# Rows of a list

A list in columns holds rows, the field values of the records that have been appended to it.
`ColumnList.Holds` says which rows they are and where they stand, and the operations are described
by it: what they return, which rows the list has afterwards, and which arrays they write.
-/

namespace Splice

/-- The field values of a record; none for any other value. -/
def Value.fieldsIn (v : Value) (w : World) : List Value :=
  match v with
  | record r => w.fieldsOf r
  | _ => []

/-- A value is no record of the schema, or one whose fields have values of their types. -/
def Schema.Trusts (s : Schema) (w : World) (v : Value) : Prop :=
  s.isInstance v = true → Fits s.fieldTypes (v.fieldsIn w)

/-- What changes arrays only leaves the fields of every record. -/
theorem World.ChangesOnly.fieldsIn_eq {addrs : List Nat} {w w' : World}
    (h : World.ChangesOnly addrs w w') (v : Value) : v.fieldsIn w' = v.fieldsIn w := by
  cases v with
  | record r => exact h.fieldsOf_eq r
  | _ => rfl

/-- While the world changes, a list writes no arrays but its own, and the arrays that it comes to
have are new ones. -/
structure ColumnStore.Evolves (store store' : ColumnStore) (w w' : World) : Prop where
  changesOnly : World.ChangesOnly store.addrs w w'
  renewed : ∀ a ∈ store'.addrs, a ∈ store.addrs ∨ w.arrays.size ≤ a

namespace ColumnStore.Evolves

variable {store store₁ store₂ : ColumnStore} {w w₁ w₂ : World}

/-- A list that keeps its arrays and writes no others evolves. -/
theorem of_changesOnly (h : World.ChangesOnly store.addrs w w₁) : store.Evolves store w w₁ :=
  ⟨h, fun _ ha => .inl ha⟩

/-- A list that evolves twice evolves, as an array that it has gained is its own from then on. -/
theorem trans (h : store.Evolves store₁ w w₁) (h' : store₁.Evolves store₂ w₁ w₂) :
    store.Evolves store₂ w w₂ where
  changesOnly.records_eq := h'.changesOnly.records_eq.trans h.changesOnly.records_eq
  changesOnly.size_le := Nat.le_trans h.changesOnly.size_le h'.changesOnly.size_le
  changesOnly.kept a ha hmem := by
    -- an array that was not the list's own has not become so, as what it gains is newer
    have hmem₁ : a ∉ store₁.addrs := fun hmem₁ =>
      (h.renewed a hmem₁).elim hmem (Nat.not_le_of_lt ha)
    exact (h'.changesOnly.kept a (Nat.lt_of_lt_of_le ha h.changesOnly.size_le) hmem₁).trans
      (h.changesOnly.kept a ha hmem)
  renewed a ha := (h'.renewed a ha).elim (h.renewed a) fun hle =>
    .inr (Nat.le_trans h.changesOnly.size_le hle)

end ColumnStore.Evolves

namespace ColumnList

/-- The capacity that a full list grows to. -/
def nextCapacity (l : ColumnList) : Nat := max (2 * l.length) leastCapacity

/-- Whether a list can take one more record: it has a place left, or the capacity that it grows to
is an `int`. -/
def HasRoom (l : ColumnList) : Prop := l.length < l.capacity ∨ l.nextCapacity < 0x80000000

/-- The rows of a list after the attempt to append one. -/
def rowsAfter (rows : List (List Value)) (row : List Value) :
    (failure : Option Exception) → List (List Value)
  | none => rows ++ [row]
  | some _ => rows

/-- A list holds rows, in the order in which they have been appended to it. -/
structure Holds (l : ColumnList) (s : Schema) (w : World) (store : ColumnStore)
    (rows : List (List Value)) : Prop where
  works : l.access.Works s
  columns_eq : l.columns = .array store.table
  hasColumns : w.HasColumns s store l.capacity
  length_eq : l.length = rows.length
  length_le : l.length ≤ l.capacity
  capacity_lt : l.capacity < 0x80000000
  fits : ∀ row ∈ rows, Fits s.fieldTypes row
  rowAt : ∀ i row, rows[i]? = some row → w.RowAt store.columns i row

/-- A position within the bound is an index. -/
theorem intIndex_of_lt {i : Nat} (h : i < 0x80000000) : intIndex i = .ok (Int32.ofNat i) := if_pos h

/-- A position behind the bound is not. -/
theorem intIndex_of_not_lt {i : Nat} (h : ¬ i < 0x80000000) :
    intIndex i = .error (.indexTooLarge i) := if_neg h

/-- Columns and an integer are what reading and resizing take. -/
theorem fits_args {l : ColumnList} {table : ArrayRef} (h : l.columns = .array table) (i : Int32) :
    Fits [ColumnAccess.columnsTy, .int] [l.columns, .int i] := by
  rw [h]
  exact .cons rfl (.cons rfl .nil)

/-- The capacity that a full list grows to has a place for one more record. -/
theorem lt_nextCapacity (l : ColumnList) : l.length < l.nextCapacity := by
  unfold nextCapacity leastCapacity
  omega

/-- A list with a place left stays as it is. -/
theorem reserve_of_lt {l : ColumnList} (h : l.length < l.capacity) : l.reserve = pure l := if_pos h

/-- A list without a place left resizes its columns. -/
theorem reserve_of_not_lt {l : ColumnList} (h : ¬ l.length < l.capacity) :
    l.reserve = (do
      let _ ← l.access.resize.invoke 0 [l.columns, .int (← intIndex l.nextCapacity)]
      return { l with capacity := l.nextCapacity }) := if_neg h

/-- A full list that cannot grow is left as it is. -/
theorem exists_reserve_thrown {l : ColumnList} (hroom : ¬ l.HasRoom) (w : World) :
    ∃ e, l.reserve w = .thrown e { w with nextId := w.nextId + 1 } := by
  obtain ⟨hlt, hcapacity⟩ := not_or.1 hroom
  rw [reserve_of_not_lt hlt, intIndex_of_not_lt hcapacity]
  exact ⟨_, Exec.bind_of_thrown (Exec.raise_apply _ w)⟩

section

variable {l l₁ : ColumnList} {v : Value} {w w₁ w' : World} (hreserve : l.reserve w = .ok l₁ w₁)
  (hlength : l₁.length < 0x80000000)

include hreserve hlength

/-- Where there is a place and the record is written, it has been appended. -/
theorem push_apply_of_ok {u : Value} (hwrite : l₁.access.write.invoke 0
      [l₁.columns, .int (Int32.ofNat l₁.length), v] w₁ = .ok u w') :
    l.push v w = .ok ({ l₁ with length := l₁.length + 1 }, none) w' := by
  refine (Exec.bind_of_ok (Exec.attempt_of_ok hreserve)).trans
    (Exec.bind_of_ok (Exec.attempt_of_ok (a := u) ?_))
  rw [intIndex_of_lt hlength]
  exact hwrite

/-- The list may have grown although nothing has been appended. -/
theorem push_apply_of_thrown {e : Exception} (hwrite : l₁.access.write.invoke 0
      [l₁.columns, .int (Int32.ofNat l₁.length), v] w₁ = .thrown e w') :
    l.push v w = .ok (l₁, some e) w' := by
  refine (Exec.bind_of_ok (Exec.attempt_of_ok hreserve)).trans
    (Exec.bind_of_ok (Exec.attempt_of_thrown (e := e) ?_))
  rw [intIndex_of_lt hlength]
  exact hwrite

end

/-- There is nothing to be read at the end of a list or behind it. -/
theorem get_apply_of_length_le {l : ColumnList} {i : Nat} {w : World} (h : l.length ≤ i) :
    ∃ message, l.get i w = .thrown ⟨w.nextId, "IndexOutOfBoundsException", message⟩
      { w with nextId := w.nextId + 1 } := by
  rw [get, if_pos h]
  exact ⟨_, Exec.raise_apply _ w⟩

namespace Holds

variable {l : ColumnList} {s : Schema} {w w' : World} {store : ColumnStore}
  {rows : List (List Value)}

/-- A list keeps its rows as long as nobody touches its arrays. -/
theorem frame (h : l.Holds s w store rows)
    (hkept : ∀ a ∈ store.addrs, w'.arrays[a]? = w.arrays[a]?) : l.Holds s w' store rows :=
  { h with
    hasColumns := h.hasColumns.frame hkept
    rowAt := fun i row hrow => (h.rowAt i row hrow).congr <|
      List.forall₂_same.2 fun c hc => by
        rw [World.elementsOf_congr (hkept _ (List.mem_cons_of_mem _ (List.mem_map_of_mem hc)))] }

variable (hbound : s.fields.length ≤ 0x80000000)

include hbound

/-- What is read is a new record of the row. -/
theorem get_apply (h : l.Holds s w store rows) {i : Nat} {row : List Value}
    (hrow : rows[i]? = some row) :
    l.get i w = .ok (.record ⟨s, w.records.size⟩) { w with records := w.records.push row } := by
  have hi : i < l.length := h.length_eq.symm ▸ (List.getElem?_eq_some_iff.1 hrow).1
  have hlt : i < 0x80000000 := Nat.lt_trans (Nat.lt_of_lt_of_le hi h.length_le) h.capacity_lt
  rw [get, if_neg (Nat.not_le_of_lt hi), intIndex_of_lt hlt]
  refine (h.works.read_computes.invoke_apply (fits_args h.columns_eq _)).trans ?_
  rw [h.columns_eq]
  exact h.hasColumns.readRecord_apply hbound (Int32.toInt_ofNat_of_lt hlt) (h.rowAt i row hrow)
    (h.fits row (List.mem_of_getElem? hrow))

/-- Reading writes no array. -/
theorem arrays_eq_of_get (h : l.Holds s w store rows) {i : Nat}
    (hrun : (∃ v, l.get i w = .ok v w') ∨ ∃ e, l.get i w = .thrown e w') :
    w'.arrays = w.arrays := by
  rcases Nat.lt_or_ge i l.length with hi | hi
  · have hget := h.get_apply hbound (List.getElem?_eq_getElem (h.length_eq ▸ hi))
    rw [hget] at hrun
    obtain ⟨v, hv⟩ | ⟨e, he⟩ := hrun
    · cases hv
      rfl
    · exact nomatch he
  · obtain ⟨message, hget⟩ := get_apply_of_length_le (w := w) hi
    rw [hget] at hrun
    obtain ⟨v, hv⟩ | ⟨e, he⟩ := hrun
    · exact nomatch hv
    · cases he
      rfl

/-- A list that has room gets a place for one more record. -/
theorem exists_reserve (h : l.Holds s w store rows) (hroom : l.HasRoom) :
    ∃ l' w' store', l.reserve w = .ok l' w' ∧ l'.Holds s w' store' rows ∧
      l'.length < l'.capacity ∧ store.Evolves store' w w' := by
  by_cases hlt : l.length < l.capacity
  · -- with a place left nothing is resized
    exact ⟨l, w, store, by rw [reserve_of_lt hlt]; rfl, h, hlt, .of_changesOnly (.refl _ w)⟩
  have hcapacity : l.nextCapacity < 0x80000000 := hroom.resolve_left hlt
  obtain ⟨w', store', hrun, htable, hcolumns, hchanges, hnew, hkept⟩ :=
    h.hasColumns.exists_resize hbound (Int32.toInt_ofNat_of_lt hcapacity)
  have hinvoke : l.access.resize.invoke 0 [l.columns, .int (Int32.ofNat l.nextCapacity)] w =
      .ok .unit w' := by
    refine (h.works.resize_computes.invoke_apply (fits_args h.columns_eq _)).trans ?_
    rw [h.columns_eq]
    exact Exec.bind_of_ok hrun
  have hle := l.lt_nextCapacity
  refine ⟨{ l with capacity := l.nextCapacity }, w', store', ?_, ?_, hle, ?_, ?_⟩
  · rw [reserve_of_not_lt hlt, intIndex_of_lt hcapacity]
    exact Exec.bind_of_ok hinvoke
  · exact
      { h with
        columns_eq := htable ▸ h.columns_eq
        hasColumns := hcolumns
        length_le := Nat.le_of_lt hle
        capacity_lt := hcapacity
        rowAt := fun i row hrow => by
          have hi : i < l.length := h.length_eq.symm ▸ (List.getElem?_eq_some_iff.1 hrow).1
          exact hkept i row (Nat.lt_of_lt_of_le hi h.length_le) (Nat.lt_trans hi hle)
            (h.rowAt i row hrow) }
  · exact hchanges.mono (List.cons_subset_cons _ (List.nil_subset _))
  · refine List.forall_mem_cons.2 ⟨.inl (htable ▸ List.mem_cons_self), fun a ha => ?_⟩
    obtain ⟨c, hc, rfl⟩ := List.mem_map.1 ha
    exact .inr (hnew c hc)

/-- A record is written behind the rows of a list that has a place for it. -/
theorem exists_write (h : l.Holds s w store rows) (hlt : l.length < l.capacity) {v : Value}
    (hv : s.isInstance v = true) (hfits : Fits s.fieldTypes (v.fieldsIn w)) :
    ∃ w', l.access.write.invoke 0 [l.columns, .int (Int32.ofNat l.length), v] w = .ok .unit w' ∧
      { l with length := l.length + 1 }.Holds s w' store (rows ++ [v.fieldsIn w]) ∧
      World.ChangesOnly store.addrs w w' := by
  obtain ⟨r, rfl, hr⟩ := Schema.exists_record_of_isInstance hv
  have hlength : (Int32.ofNat l.length).toInt = l.length :=
    Int32.toInt_ofNat_of_lt (Nat.lt_trans hlt h.capacity_lt)
  obtain ⟨w', hrun, hcolumns, hchanges, hrow, hkept⟩ :=
    h.hasColumns.exists_write hbound hlength hlt hr hfits
  have hargs : Fits [ColumnAccess.columnsTy, .int, s.ty]
      [l.columns, .int (Int32.ofNat l.length), .record r] :=
    (fits_args h.columns_eq _).append (.cons (decide_eq_true (congrArg Schema.name hr)) .nil)
  refine ⟨w', ?_, ?_, hchanges⟩
  · refine (h.works.write_computes.invoke_apply hargs).trans ?_
    rw [h.columns_eq]
    exact Exec.bind_of_ok hrun
  · refine
      { h with
        hasColumns := hcolumns
        length_eq := by rw [List.length_append, ← h.length_eq]; rfl
        length_le := hlt
        fits := List.forall_mem_append.2 ⟨h.fits, List.forall_mem_singleton.2 hfits⟩
        rowAt := fun i row hi => ?_ }
    -- the rows in front have not been touched, and the one behind them has just been written
    by_cases hold : i < rows.length
    · rw [List.getElem?_append_left hold] at hi
      exact hkept i row (Nat.ne_of_lt (h.length_eq.symm ▸ hold)) (h.rowAt i row hi)
    · have hlast := (List.getElem?_eq_some_iff.1 hi).1
      rw [List.length_append, List.length_singleton] at hlast
      obtain rfl : i = rows.length := by omega
      rw [List.getElem?_concat_length] at hi
      exact Option.some.inj hi ▸ h.length_eq ▸ hrow

/-- What is no record of the schema is not written, and is refused if it passes for one. -/
theorem exists_write_thrown (h : l.Holds s w store rows) (hfields : s.fields ≠ []) {v : Value}
    (hv : s.isInstance v = false) :
    ∃ e, l.access.write.invoke 0 [l.columns, .int (Int32.ofNat l.length), v] w =
      .thrown e { w with nextId := w.nextId + 1 } ∧ (s.ty.admits v = true → e.IsRefusal) := by
  by_cases hargs : Fits [ColumnAccess.columnsTy, .int, s.ty]
      -- either the arguments fit and the first field is refused, or they are refused themselves
      [l.columns, .int (Int32.ofNat l.length), v]
  · -- the arguments fit, as null and records of another schema of the name do
    obtain ⟨f, fs, hfs⟩ := List.exists_cons_of_ne_nil hfields
    have hahead := h.hasColumns.ahead hbound
    rw [hfs] at hahead
    obtain ⟨e, he, hrefusal⟩ :=
      forM_writeField_of_isInstance_eq_false (Int32.ofNat l.length) hahead hv
    refine ⟨e, (h.works.write_computes.invoke_apply hargs).trans (Exec.bind_of_thrown ?_),
      fun _ => hrefusal⟩
    rw [h.columns_eq, hfs]
    exact he
  · obtain ⟨e, he⟩ := h.works.write_computes.exists_invoke_thrown hargs
    refine ⟨e, he, fun hadmits => absurd ?_ hargs⟩
    exact (fits_args h.columns_eq _).append (.cons hadmits .nil)

/-- The attempt to append a value ends, whatever the value. The value is appended if it is a record
of the schema and there is room. If there is room and the value only passes for such a record, it is
refused. -/
theorem exists_push (h : l.Holds s w store rows) (hfields : s.fields ≠ []) {v : Value}
    (hv : s.Trusts w v) :
    ∃ l' failure w' store', l.push v w = .ok (l', failure) w' ∧
      (failure = none ↔ s.isInstance v = true ∧ l.HasRoom) ∧
      (s.ty.admits v = true → l.HasRoom → ∀ e, failure = some e → e.IsRefusal) ∧
      l'.Holds s w' store' (rowsAfter rows (v.fieldsIn w) failure) ∧
      store.Evolves store' w w' := by
  by_cases hroom : l.HasRoom
  case neg =>
    obtain ⟨e, he⟩ := exists_reserve_thrown hroom w
    refine ⟨l, some e, _, store, Exec.bind_of_ok (Exec.attempt_of_thrown he), ?_,
      fun _ hroom' => absurd hroom' hroom, h.frame fun _ _ => rfl, .of_changesOnly (.nextId _ w _)⟩
    exact ⟨nofun, fun hpushed => absurd hpushed.2 hroom⟩
  obtain ⟨l₁, w₁, store₁, hreserve, h₁, hlt, hevolves⟩ := h.exists_reserve hbound hroom
  have hindex : l₁.length < 0x80000000 := Nat.lt_trans hlt h₁.capacity_lt
  cases hinstance : s.isInstance v with
  | true =>
    -- growing changes no record, so the row is that of the record as it was handed in
    have hfields_eq := hevolves.changesOnly.fieldsIn_eq v
    obtain ⟨w', hwrite, h', hchanges⟩ :=
      h₁.exists_write hbound hlt hinstance (hfields_eq ▸ hv hinstance)
    exact ⟨_, none, w', store₁, push_apply_of_ok hreserve hindex hwrite,
      ⟨fun _ => ⟨rfl, hroom⟩, fun _ => rfl⟩, nofun, hfields_eq ▸ h',
      hevolves.trans (.of_changesOnly hchanges)⟩
  | false =>
    obtain ⟨e, he, hrefusal⟩ := h₁.exists_write_thrown hbound hfields hinstance
    exact ⟨l₁, some e, _, store₁, push_apply_of_thrown hreserve hindex he, ⟨nofun, nofun⟩,
      fun hadmits _ _ hfailure => Option.some.inj hfailure ▸ hrefusal hadmits,
      h₁.frame fun _ _ => rfl, hevolves.trans (.of_changesOnly (.nextId _ w₁ _))⟩

end Holds

end ColumnList

/-- A new list has no rows and no places for rows, and its arrays are new. -/
theorem ColumnAccess.Works.exists_newList {access : ColumnAccess} {s : Schema}
    (h : access.Works s) (w : World) :
    ∃ l w' store, access.newList w = .ok l w' ∧ l.Holds s w' store [] ∧ l.capacity = 0 ∧
      World.ChangesOnly [] w w' ∧ ∀ a ∈ store.addrs, w.arrays.size ≤ a := by
  obtain ⟨columns, w₁, hrun, hlength, hchanges, hmade, hempty⟩ :=
    exists_mapM_newColumn access.schema.fields w
  let table : ArrayRef := ⟨.any, w₁.arrays.size⟩
  let w' := w₁.addArray (columns.map .array)
  have hadded := World.ChangesOnly.addArray [] w₁ (columns.map .array)
  -- the arrays of the columns come first, and the one that holds them comes last
  have hrun' : access.newList w = .ok { access, columns := .array table } w' :=
    (Exec.bind_of_ok hrun).trans rfl
  have hcolumns : w'.HasColumns s ⟨table, columns⟩ 0 := by
    refine ⟨World.elementsOf_addArray_new .., h.schema_eq ▸ hlength,
      List.nodup_cons.2 ⟨fun hmem => ?_, hmade.nodup⟩,
      List.forall_mem_cons.2 ⟨World.size_addArray ▸ Nat.lt_succ_self _, fun a ha => ?_⟩,
      fun c hc => ?_⟩
    · obtain ⟨c, hc, haddr⟩ := List.mem_map.1 hmem
      exact Nat.ne_of_lt (hmade.allocated c hc) haddr
    · obtain ⟨c, hc, rfl⟩ := List.mem_map.1 ha
      exact Nat.lt_of_lt_of_le (hmade.allocated c hc) hadded.size_le
    · rw [hadded.elementsOf_eq (hmade.allocated c hc) List.not_mem_nil, hempty c hc]
      rfl
  refine ⟨_, w', ⟨table, columns⟩, hrun',
    ⟨h, rfl, hcolumns, rfl, Nat.le_refl 0, Nat.succ_pos _, nofun, nofun⟩, rfl,
    hchanges.trans hadded, List.forall_mem_cons.2 ⟨hchanges.size_le, fun a ha => ?_⟩⟩
  obtain ⟨c, hc, rfl⟩ := List.mem_map.1 ha
  exact hmade.size_le c hc

/-! ## More fields than positions -/

/-- A list of a schema with more fields than there are positions never gets a place for a record. -/
structure ColumnList.Stuck (l : ColumnList) (s : Schema) : Prop where
  works : l.access.Works s
  exists_columns : ∃ table, l.columns = .array table
  length_eq : l.length = 0
  capacity_eq : l.capacity = 0

/-- What such a list is handed is not appended, as its columns cannot be resized. -/
theorem ColumnList.Stuck.exists_push {l : ColumnList} {s : Schema} (h : l.Stuck s)
    (hfields : 0x80000000 < s.fields.length) (v : Value) (w : World) :
    ∃ e w', l.push v w = .ok (l, some e) w' := by
  obtain ⟨table, htable⟩ := h.exists_columns
  have hfull : ¬ l.length < l.capacity := h.capacity_eq ▸ Nat.not_lt_zero _
  have hcapacity : l.nextCapacity < 0x80000000 := by
    rw [nextCapacity, h.length_eq]
    decide
  obtain ⟨e, w', he⟩ := exists_forM_resizeField_thrown hfields table
    (.int (Int32.ofNat l.nextCapacity)) w
  have hinvoke : l.access.resize.invoke 0 [l.columns, .int (Int32.ofNat l.nextCapacity)] w =
      .thrown e w' := by
    refine (h.works.resize_computes.invoke_apply (fits_args htable _)).trans ?_
    rw [htable]
    exact Exec.bind_of_thrown he
  have hreserve : l.reserve w = .thrown e w' := by
    rw [reserve_of_not_lt hfull, intIndex_of_lt hcapacity]
    exact (Exec.bind_of_ok rfl).trans (Exec.bind_of_thrown hinvoke)
  exact ⟨e, w', Exec.bind_of_ok (Exec.attempt_of_thrown hreserve)⟩

end Splice
