import Splice.Proofs.Columns.Access
import Splice.Proofs.Handle.Typing
import Splice.Proofs.Store.Objects

/-!
# Columns in the world

The columns of a list are arrays of one length, which a table holds in the order of the fields. A
row is what stands at one index of all columns. Reading gives the row at an index, writing puts the
fields of a record there and leaves all other rows alone, and resizing keeps all rows that have a
place. Each is an induction over the fields, with the columns that have been passed in front of
those to come.
-/

namespace Splice

open ColumnAccess

/-- The values of a record of a schema are arguments for its fields. -/
theorem Schema.mismatch?_eq_none_iff {s : Schema} {values : List Value} :
    s.mismatch? values = none ↔ Fits s.fieldTypes values := by
  unfold mismatch? Fits fieldTypes
  rw [List.forall₂_map_left_iff, List.forall₂_iff_zip]
  split
  case isTrue hlen => exact ⟨nofun, fun h => absurd h.1.symm hlen⟩
  case isFalse hlen =>
    rw [not_not] at hlen
    rw [List.findSome?_eq_none_iff, and_iff_right hlen.symm]
    constructor
    · intro hall field v hmem
      by_contra hv
      exact nomatch (if_neg hv).symm.trans (hall (field, v) hmem)
    · rintro hall ⟨field, v⟩ hmem
      exact if_pos (hall hmem)

/-- The arrays of a list: a table, and the columns that it holds in the order of the fields. -/
structure ColumnStore where
  table : ArrayRef
  columns : List ArrayRef

/-- The addresses of all arrays of a list. -/
def ColumnStore.addrs (c : ColumnStore) : List Nat := c.table.addr :: c.columns.map ArrayRef.addr

namespace World

/-- There is a column for each field of a schema. They are all of one length, and each is an array
of its own, as is the table that holds them. -/
structure HasColumns (w : World) (s : Schema) (store : ColumnStore) (capacity : Nat) : Prop where
  elements_eq : w.elementsOf store.table = store.columns.map Value.array
  width_eq : store.columns.length = s.fields.length
  nodup : store.addrs.Nodup
  allocated : ∀ a ∈ store.addrs, a < w.arrays.size
  length_eq : ∀ c ∈ store.columns, (w.elementsOf c).length = capacity

/-- A row stands at an index of all columns. -/
def RowAt (w : World) (columns : List ArrayRef) (i : Nat) (row : List Value) : Prop :=
  columns.map (fun c => (w.elementsOf c)[i]?) = row.map some

end World

/-! ## Columns still to come -/

/-- On the way through the fields of a schema, some columns have been passed, and there is one for
each field that is still to come. All positions are integers. -/
structure World.Ahead (w : World) (table : ArrayRef) (done rest : List ArrayRef) (fs : List Field) :
    Prop where
  elements_eq : w.elementsOf table = (done ++ rest).map Value.array
  length_eq : rest.length = fs.length
  bound : done.length + fs.length ≤ 0x80000000

namespace World.Ahead

variable {w w' : World} {table c : ArrayRef} {done rest : List ArrayRef} {f : Field}
  {fs : List Field}

/-- Passing a field passes its column. -/
theorem next (h : w.Ahead table done (c :: rest) (f :: fs)) :
    w.Ahead table (done ++ [c]) rest fs := by
  refine ⟨?_, Nat.succ.inj h.length_eq, ?_⟩
  · rw [List.append_assoc]
    exact h.elements_eq
  · have hbound := h.bound
    simp only [List.length_cons, List.length_append, List.length_nil] at hbound ⊢
    omega

/-- The columns to come stay where their table keeps its elements. -/
theorem congr (h : w.Ahead table done rest fs) (htable : w'.elementsOf table = w.elementsOf table) :
    w'.Ahead table done rest fs := ⟨htable.trans h.elements_eq, h.length_eq, h.bound⟩

/-- The position of the next field is an integer, as all of them are. -/
theorem toInt_position (h : w.Ahead table done (c :: rest) (f :: fs)) :
    (Int32.ofNat done.length).toInt = done.length := by
  have hbound := h.bound
  rw [List.length_cons] at hbound
  exact Int32.toInt_ofNat_of_lt (by omega)

/-- The next column is found in the table, and is an array of any type. -/
theorem columnAt_apply (h : w.Ahead table done (c :: rest) (f :: fs)) :
    columnAt (.array table) (positionOf (f, done.length)) f.ty w = .ok (.array c) w := by
  have hc : (w.elementsOf table)[done.length]? = some (.array c) := by
    rw [h.elements_eq, List.getElem?_map, List.getElem?_append_right (Nat.le_refl _), Nat.sub_self]
    rfl
  have hcast : Conversion.checkDowncast (.array c) (.array f.ty) = .ok (.array c) :=
    Conversion.checkDowncast_of_admits rfl
  refine (Exec.bind_of_ok (Value.getElement_apply h.toInt_position hc)).trans ?_
  rw [hcast]
  rfl

end World.Ahead

/-! ## Loops over the fields -/

/-- For each field, an empty column is made. -/
theorem exists_mapM_newColumn (fs : List Field) (w : World) :
    ∃ columns w', fs.mapM (fun f => Value.array <$> ArrayRef.new f.ty 0) w =
        .ok (columns.map Value.array) w' ∧
      columns.length = fs.length ∧ World.ChangesOnly [] w w' ∧ World.Made w w' columns ∧
      ∀ c ∈ columns, w'.elementsOf c = [] := by
  induction fs generalizing w with
  | nil => exact ⟨[], w, rfl, rfl, .refl _ w, .nil w w, nofun⟩
  | cons f fs ih =>
    have hnew : (Value.array <$> ArrayRef.new f.ty 0 : Exec Value) w =
        .ok (.array ⟨f.ty, w.arrays.size⟩) (w.addArray []) := rfl
    obtain ⟨columns, w', hrun, hlength, hchanges, hmade, hempty⟩ := ih (w.addArray [])
    refine ⟨⟨f.ty, w.arrays.size⟩ :: columns, w', ?_, congrArg (· + 1) hlength,
      (World.ChangesOnly.addArray [] w []).trans hchanges,
      hmade.cons f.ty World.size_addArray hchanges.size_le, List.forall_mem_cons.2 ⟨?_, hempty⟩⟩
    · rw [List.mapM_cons, Exec.bind_of_ok hnew, Exec.bind_of_ok hrun]
      rfl
    · rw [hchanges.elementsOf_eq (World.size_addArray ▸ Nat.lt_succ_self _) List.not_mem_nil]
      exact World.elementsOf_addArray_new w [] f.ty

section

variable {s : Schema} {table : ArrayRef} {w : World} {fs : List Field} {done rest : List ArrayRef}
  {index : Int32} {i : Nat} (hindex : index.toInt = i)

include hindex

/-- Reading the fields of a row one after the other gives the row. -/
theorem mapM_readField {row : List Value} (hahead : w.Ahead table done rest fs)
    (hrow : w.RowAt rest i row) :
    (fs.zipIdx done.length).mapM (readField (.array table) (.int index)) w = .ok row w := by
  -- the columns passed so far count up the positions
  induction fs generalizing done rest row with
  | nil =>
    obtain rfl := List.length_eq_zero_iff.1 hahead.length_eq
    obtain rfl : row = [] := List.map_eq_nil_iff.1 hrow.symm
    rfl
  | cons f fs ih =>
    cases rest with
    | nil => exact nomatch hahead.length_eq
    | cons c rest =>
      cases row with
      | nil => exact nomatch hrow
      | cons v row =>
        obtain ⟨hv, hrow⟩ := List.cons.inj hrow
        have hread : readField (.array table) (.int index) (f, done.length) w = .ok v w :=
          (Exec.bind_of_ok hahead.columnAt_apply).trans (Value.getElement_apply hindex hv)
        have hrest := ih hahead.next hrow
        rw [List.length_append, List.length_singleton] at hrest
        rw [List.zipIdx_cons, List.mapM_cons, Exec.bind_of_ok hread, Exec.bind_of_ok hrest]
        rfl

/-- The next field of a record is written to the next column. -/
theorem writeField_apply {r : Record} (hr : r.schema = s) {c : ArrayRef} {f : Field} {v : Value}
    (hahead : w.Ahead table done (c :: rest) (f :: fs)) (hv : (w.fieldsOf r)[done.length]? = some v)
    (hi : i < (w.elementsOf c).length) :
    writeField s (.array table) (.int index) (.record r) (f, done.length) w =
      .ok ⟨⟩ (w.setElements c ((w.elementsOf c).set i v)) :=
  (Exec.bind_of_ok hahead.columnAt_apply).trans <|
    (Exec.bind_of_ok (Value.getField_apply hr hv)).trans <|
    Exec.bind_of_ok (Value.setElement_apply hindex hi)

/-- Each field is written to its column, and nothing else. -/
theorem exists_forM_writeField {r : Record} (hr : r.schema = s) {before values : List Value}
    (hahead : w.Ahead table done rest fs) (hfields : w.fieldsOf r = before ++ values)
    (hbefore : before.length = done.length) (hvalues : values.length = fs.length)
    (hnodup : (table.addr :: rest.map ArrayRef.addr).Nodup)
    (hcolumns : ∀ c ∈ rest, c.addr < w.arrays.size ∧ i < (w.elementsOf c).length) :
    ∃ w', (fs.zipIdx done.length).forM (writeField s (.array table) (.int index) (.record r)) w =
        .ok ⟨⟩ w' ∧ World.ChangesOnly (rest.map ArrayRef.addr) w w' ∧
      List.Forall₂ (fun c v => w'.elementsOf c = (w.elementsOf c).set i v) rest values := by
  -- on the fields to come; the columns that have been written are not looked at again
  induction fs generalizing done rest before values w with
  | nil =>
    obtain rfl := List.length_eq_zero_iff.1 hahead.length_eq
    obtain rfl := List.length_eq_zero_iff.1 hvalues
    exact ⟨w, rfl, .refl _ w, .nil⟩
  | cons f fs ih =>
    cases rest with
    | nil => exact nomatch hahead.length_eq
    | cons c rest =>
      cases values with
      | nil => exact nomatch hvalues
      | cons v values =>
        let w₁ := w.setElements c ((w.elementsOf c).set i v)
        obtain ⟨⟨hc_lt, hi⟩, hrest_columns⟩ := List.forall_mem_cons.1 hcolumns
        rw [List.map_cons, List.nodup_cons, List.nodup_cons, List.mem_cons, not_or] at hnodup
        obtain ⟨⟨htable, htables⟩, hc, hrest⟩ := hnodup
        have hv : (w.fieldsOf r)[done.length]? = some v := by
          rw [hfields, ← hbefore, List.getElem?_append_right (Nat.le_refl _), Nat.sub_self]
          rfl
        have hset : World.ChangesOnly [c.addr] w w₁ := .setElements w c _
        -- the columns to come are other arrays, and so is the table
        have hothers : ∀ d ∈ rest, w₁.elementsOf d = w.elementsOf d := fun d hd =>
          World.elementsOf_setElements_ne w _ fun hcd => hc (hcd ▸ List.mem_map_of_mem hd)
        have hahead₁ : w₁.Ahead table (done ++ [c]) rest fs :=
          hahead.next.congr (World.elementsOf_setElements_ne w _ (Ne.symm htable))
        have hfields₁ : w₁.fieldsOf r = (before ++ [v]) ++ values := by
          rw [List.append_assoc]
          exact hfields
        obtain ⟨w', hrun, hchanges, hwritten⟩ := ih hahead₁ hfields₁ (by simp [hbefore])
          (Nat.succ.inj hvalues) (List.nodup_cons.2 ⟨htables, hrest⟩) fun d hd =>
            ⟨Nat.lt_of_lt_of_le (hrest_columns d hd).1 hset.size_le,
              by rw [hothers d hd]; exact (hrest_columns d hd).2⟩
        rw [List.length_append, List.length_singleton] at hrun
        refine ⟨w', (Exec.bind_of_ok (writeField_apply hindex hr hahead hv hi)).trans hrun,
          (hset.mono (by simp)).trans (hchanges.mono (List.subset_cons_self _ _)), .cons ?_ ?_⟩
        · rw [hchanges.elementsOf_eq (Nat.lt_of_lt_of_le hc_lt hset.size_le) hc]
          exact World.elementsOf_setElements w c _ hc_lt
        · refine ((List.forall₂_and_left _ _).2 ⟨hothers, hwritten⟩).imp ?_
          rintro d v ⟨hd, hwritten⟩
          rw [hwritten, hd]

omit hindex in
/-- What is no record of the schema is refused at the first field, before anything is written. -/
theorem forM_writeField_of_isInstance_eq_false (index : Int32) {v : Value} {f : Field}
    (hahead : w.Ahead table [] rest (f :: fs)) (hv : s.isInstance v = false) :
    ∃ e, ((f :: fs).zipIdx).forM (writeField s (.array table) (.int index) v) w =
      .thrown e { w with nextId := w.nextId + 1 } ∧ e.IsRefusal := by
  cases rest with
  | nil => exact nomatch hahead.length_eq
  | cons c rest =>
    obtain ⟨e, he, hrefusal⟩ := Value.getField_apply_of_isInstance_eq_false (i := 0) (w := w) hv
    refine ⟨e, Exec.bind_of_thrown ?_, hrefusal⟩
    exact (Exec.bind_of_ok hahead.columnAt_apply).trans (Exec.bind_of_thrown he)

/-- The next column is replaced by a copy of another length, which is a new array. -/
theorem exists_resizeField {c : ArrayRef} {f : Field}
    (hahead : w.Ahead table done (c :: rest) (f :: fs)) (htable : table.addr < w.arrays.size) :
    let d : ArrayRef := ⟨c.elem, w.arrays.size⟩
    ∃ w', resizeField (.array table) (.int index) (f, done.length) w = .ok ⟨⟩ w' ∧
      w'.Ahead table (done ++ [d]) rest fs ∧ World.ChangesOnly [table.addr] w w' ∧
      w'.arrays.size = w.arrays.size + 1 ∧
      w'.elementsOf d = ArrayRef.resized c.elem (w.elementsOf c) i := by
  intro d
  let w₁ := w.addArray (ArrayRef.resized c.elem (w.elementsOf c) i)
  let w₂ := w₁.setElements table ((w₁.elementsOf table).set done.length (.array d))
  have hadded := World.ChangesOnly.addArray [] w (ArrayRef.resized c.elem (w.elementsOf c) i)
  have hset := World.ChangesOnly.setElements w₁ table
    ((w₁.elementsOf table).set done.length (.array d))
  have helements : w₁.elementsOf table = (done ++ c :: rest).map .array :=
    (hadded.elementsOf_eq htable List.not_mem_nil).trans hahead.elements_eq
  refine ⟨w₂, ?_, ⟨?_, hahead.next.length_eq, by simpa using hahead.next.bound⟩,
    (hadded.mono nofun).trans hset, World.size_setElements.trans World.size_addArray, ?_⟩
  · refine (Exec.bind_of_ok hahead.columnAt_apply).trans <|
      (Exec.bind_of_ok (Value.arrayCopyOf_apply hindex)).trans <|
      Exec.bind_of_ok (Value.setElement_apply hahead.toInt_position ?_)
    rw [helements]
    simp
  · rw [World.elementsOf_setElements _ _ _ (Nat.lt_of_lt_of_le htable hadded.size_le), helements]
    simp
  · exact (World.elementsOf_setElements_ne w₁ _ (Nat.ne_of_lt htable)).trans
      (World.elementsOf_addArray_new w _ c.elem)

/-- Every column is replaced by a copy of another length, which is a new array. -/
theorem exists_forM_resizeField (hahead : w.Ahead table done rest fs)
    (hallocated : ∀ a ∈ table.addr :: rest.map ArrayRef.addr, a < w.arrays.size)
    (htable : table.addr ∉ rest.map ArrayRef.addr) :
    ∃ w' new, (fs.zipIdx done.length).forM (resizeField (.array table) (.int index)) w = .ok ⟨⟩ w' ∧
      w'.elementsOf table = (done ++ new).map .array ∧ World.ChangesOnly [table.addr] w w' ∧
      World.Made w w' new ∧
      List.Forall₂ (fun c d => w'.elementsOf d = ArrayRef.resized c.elem (w.elementsOf c) i) rest
        new := by
  induction fs generalizing done rest w with
  | nil =>
    obtain rfl := List.length_eq_zero_iff.1 hahead.length_eq
    exact ⟨w, [], rfl, hahead.elements_eq, .refl _ w, .nil w w, .nil⟩
  | cons f fs ih =>
    cases rest with
    | nil => exact nomatch hahead.length_eq
    | cons c rest =>
      obtain ⟨htable_lt, -, hrest_lt⟩ := List.forall_mem_cons.1 hallocated |>.imp_right
        List.forall_mem_cons.1
      obtain ⟨-, hrest⟩ := not_or.1 (List.mem_cons.not.1 htable)
      obtain ⟨w₁, hstep, hahead₁, hbefore, hsize, hd⟩ :=
        exists_resizeField hindex hahead htable_lt
      obtain ⟨w', new, hrun, helements, hchanges, hmade, hresized⟩ := ih hahead₁
        (List.forall_mem_cons.2 ⟨by omega, fun a ha => hsize ▸ Nat.lt_succ_of_lt (hrest_lt a ha)⟩)
        hrest
      rw [List.length_append, List.length_singleton] at hrun
      refine ⟨w', ⟨c.elem, w.arrays.size⟩ :: new, (Exec.bind_of_ok hstep).trans hrun, ?_,
        hbefore.trans hchanges, hmade.cons c.elem hsize hchanges.size_le, .cons ?_ ?_⟩
      · rw [helements, List.append_assoc]
        rfl
      · rw [hchanges.elementsOf_eq (hsize ▸ Nat.lt_succ_self _) fun h => ?_, hd]
        exact Nat.ne_of_lt htable_lt (List.mem_singleton.1 h).symm
      · -- the columns to come have not been touched yet
        have hold : ∀ e ∈ rest, w₁.elementsOf e = w.elementsOf e := fun e he =>
          hbefore.elementsOf_eq (hrest_lt _ (List.mem_map_of_mem he)) fun h =>
            hrest (List.mem_singleton.1 h ▸ List.mem_map_of_mem he)
        refine ((List.forall₂_and_left _ _).2 ⟨hold, hresized⟩).imp ?_
        rintro e e' ⟨he, hresized⟩
        rw [hresized, he]

end

/-- Positions are integers, so columns cannot be resized if there are more of them. -/
theorem exists_forM_resizeField_thrown {s : Schema} (hfields : 0x80000000 < s.fields.length)
    (table : ArrayRef) (capacity : Value) (w : World) :
    ∃ e w', s.fields.zipIdx.forM (resizeField (.array table) capacity) w = .thrown e w' := by
  refine Exec.exists_forM_thrown (fun f _ => ?_)
    ⟨(s.fields[0x80000000], 0x80000000), ?_, fun w => ?_⟩ w
  · exact .bind (.bind (Value.finishes_getElement _ _) fun _ => .lift _) fun _ =>
      .bind (Value.finishes_arrayCopyOf _ _) fun _ =>
      .bind (Value.finishes_setElement _ _ _) fun _ => .pure _
  · exact List.mem_zipIdx_iff_getElem?.2 (List.getElem?_eq_getElem hfields)
  · -- as an integer, the position is negative
    -- the first position that is too large is the lowest integer
    have hposition : (Int32.ofNat (0x80000000)).toInt < 0 := by decide
    exact ⟨_, _, Exec.bind_of_thrown (Exec.bind_of_thrown
      ((Value.getElement_apply_of_neg hposition).trans (Exec.raise_apply _ _)))⟩

/-! ## All columns -/

namespace World

variable {s : Schema} {store : ColumnStore} {columns columns' : List ArrayRef} {w w' : World}
  {capacity i : Nat} {index : Int32} {row : List Value}

/-- A row stands at an index if each of its values stands there in its column. -/
theorem rowAt_iff :
    w.RowAt columns i row ↔
      List.Forall₂ (fun c v => (w.elementsOf c)[i]? = some v) columns row := by
  rw [RowAt, ← List.forall₂_eq_eq_eq, List.forall₂_map_left_iff, List.forall₂_map_right_iff]

/-- A row that stands in some columns stands in others with the same elements at its index. -/
theorem RowAt.congr (h : w.RowAt columns i row)
    (hcolumns : List.Forall₂ (fun c d => (w.elementsOf c)[i]? = (w'.elementsOf d)[i]?) columns
      columns') : w'.RowAt columns' i row := by
  rw [← List.forall₂_map_right_iff, ← List.forall₂_map_left_iff, List.forall₂_eq_eq_eq] at hcolumns
  exact hcolumns.symm.trans h

namespace HasColumns

/-- Before the first field, all columns are still to come. -/
theorem ahead (h : w.HasColumns s store capacity) (hbound : s.fields.length ≤ 0x80000000) :
    w.Ahead store.table [] store.columns s.fields :=
  ⟨h.elements_eq, h.width_eq, by simpa using hbound⟩

/-- The columns stand as long as nobody touches their arrays. -/
theorem frame (h : w.HasColumns s store capacity)
    (hkept : ∀ a ∈ store.addrs, w'.arrays[a]? = w.arrays[a]?) : w'.HasColumns s store capacity where
  elements_eq :=
    (elementsOf_congr (hkept _ List.mem_cons_self)).trans h.elements_eq
  width_eq := h.width_eq
  nodup := h.nodup
  allocated a ha := by
    have ha' := (hkept a ha).trans (Array.getElem?_eq_getElem (h.allocated a ha))
    exact (Array.getElem?_eq_some_iff.1 ha').1
  length_eq c hc := by
    rw [elementsOf_congr (hkept _ (List.mem_cons_of_mem _ (List.mem_map_of_mem hc)))]
    exact h.length_eq c hc

/-- Reading gives a new record with the values that stand at the index. -/
theorem readRecord_apply (h : w.HasColumns s store capacity) (hbound : s.fields.length ≤ 0x80000000)
    (hindex : index.toInt = i) (hrow : w.RowAt store.columns i row)
    (hfits : Fits s.fieldTypes row) :
    readRecord s (.array store.table) (.int index) w =
      .ok (.record ⟨s, w.records.size⟩) { w with records := w.records.push row } := by
  refine (Exec.bind_of_ok (mapM_readField hindex (h.ahead hbound) hrow)).trans ?_
  rw [Schema.instantiate, Schema.mismatch?_eq_none_iff.2 hfits]
  rfl

/-- Writing a record puts its fields at the index, and leaves what stands at other indices. -/
theorem exists_write (h : w.HasColumns s store capacity) (hbound : s.fields.length ≤ 0x80000000)
    (hindex : index.toInt = i) (hi : i < capacity) {r : Record} (hr : r.schema = s)
    (hfits : Fits s.fieldTypes (w.fieldsOf r)) :
    ∃ w', s.fields.zipIdx.forM (writeField s (.array store.table) (.int index) (.record r)) w =
        .ok ⟨⟩ w' ∧
      w'.HasColumns s store capacity ∧ ChangesOnly store.addrs w w' ∧
      w'.RowAt store.columns i (w.fieldsOf r) ∧
      ∀ j row, j ≠ i → w.RowAt store.columns j row → w'.RowAt store.columns j row := by
  have hvalues : (w.fieldsOf r).length = s.fields.length :=
    hfits.length_eq.symm.trans (List.length_map _)
  have hcolumn : ∀ c ∈ store.columns, c.addr < w.arrays.size ∧ i < (w.elementsOf c).length :=
    fun c hc => ⟨h.allocated _ (List.mem_cons_of_mem _ (List.mem_map_of_mem hc)),
      Nat.lt_of_lt_of_eq hi (h.length_eq c hc).symm⟩
  have hfields : w.fieldsOf r = [] ++ w.fieldsOf r := rfl
  obtain ⟨w', hrun, hchanges, hwritten⟩ := exists_forM_writeField hindex hr (h.ahead hbound) hfields
    rfl hvalues h.nodup hcolumn
  -- writing replaces one element of each column, so lengths and other rows are kept
  have hset : ∀ c ∈ store.columns, ∃ v, w'.elementsOf c = (w.elementsOf c).set i v :=
    ((List.forall₂_and_left _ _).1 (hwritten.imp fun c v hc => ⟨⟨v, hc⟩, hc⟩)).1
  refine ⟨w', hrun, ⟨?_, h.width_eq, h.nodup, fun a ha => ?_, fun c hc => ?_⟩,
    hchanges.mono (List.subset_cons_self _ _), ?_, fun j row hj hrow => ?_⟩
  · rw [← h.elements_eq]
    exact hchanges.elementsOf_eq (h.allocated _ List.mem_cons_self) (List.nodup_cons.1 h.nodup).1
  · exact Nat.lt_of_lt_of_le (h.allocated a ha) hchanges.size_le
  · obtain ⟨v, hv⟩ := hset c hc
    rw [hv, List.length_set, h.length_eq c hc]
  · refine rowAt_iff.2 (((List.forall₂_and_left _ _).2 ⟨hcolumn, hwritten⟩).imp ?_)
    rintro c v ⟨⟨-, hlt⟩, hc⟩
    rw [hc, List.getElem?_set_self hlt]
  · refine Eq.trans (List.map_congr_left fun c hc => ?_) hrow
    obtain ⟨v, hv⟩ := hset c hc
    rw [hv, List.getElem?_set_ne (Ne.symm hj)]

/-- Resizing makes new columns, in which all rows are that still have a place. -/
theorem exists_resize (h : w.HasColumns s store capacity) (hbound : s.fields.length ≤ 0x80000000)
    (hindex : index.toInt = i) :
    ∃ w' store', s.fields.zipIdx.forM (resizeField (.array store.table) (.int index)) w =
        .ok ⟨⟩ w' ∧
      store'.table = store.table ∧ w'.HasColumns s store' i ∧ ChangesOnly [store.table.addr] w w' ∧
      (∀ c ∈ store'.columns, w.arrays.size ≤ c.addr) ∧
      ∀ j row, j < capacity → j < i → w.RowAt store.columns j row →
        w'.RowAt store'.columns j row := by
  obtain ⟨w', new, hrun, helements, hchanges, hmade, hresized⟩ :=
    exists_forM_resizeField hindex (h.ahead hbound) h.allocated (List.nodup_cons.1 h.nodup).1
  have htable := h.allocated _ List.mem_cons_self
  have hlength : ∀ d ∈ new, (w'.elementsOf d).length = i :=
    ((List.forall₂_and_left _ _).1 (hresized.flip.imp fun d c (hd : w'.elementsOf d = _) =>
      ⟨hd ▸ ArrayRef.length_resized .., hd⟩)).1
  refine ⟨w', ⟨store.table, new⟩, hrun, rfl, ⟨helements, hresized.length_eq.symm.trans h.width_eq,
    List.nodup_cons.2 ⟨fun hmem => ?_, hmade.nodup⟩,
    List.forall_mem_cons.2 ⟨Nat.lt_of_lt_of_le htable hchanges.size_le, fun a ha => ?_⟩, hlength⟩,
    hchanges, hmade.size_le, fun j row hj hi hrow => hrow.congr ?_⟩
  · -- the table is older than the new columns
    obtain ⟨d, hd, hd_eq⟩ := List.mem_map.1 hmem
    exact Nat.not_le_of_lt htable (hd_eq ▸ hmade.size_le d hd)
  · obtain ⟨d, hd, rfl⟩ := List.mem_map.1 ha
    exact hmade.allocated d hd
  · refine ((List.forall₂_and_left _ _).2 ⟨h.length_eq, hresized⟩).imp ?_
    rintro c d ⟨hc, hd⟩
    rw [hd, ArrayRef.getElem?_resized, if_pos hi, List.getElem?_eq_getElem (hc ▸ hj),
      Option.getD_some]

end HasColumns

end World

end Splice
