import Splice.Proofs.Columns.Lists

/-!
# Lists in columns are lists of rows

Any number of lists are made by one factory, and records are appended to them and read from them in
any order. In between, the world changes in any way that does not touch the arrays of the lists: in
particular, records are changed after they have been appended or read. `ColumnAccess.Reaches` says
what the world and the lists can come to be, and which rows each list should have; the main
statement is that these are the rows that it has.
-/

namespace Splice

open Compose (Gives)

/-- The arrays of a list are the table and what the table holds. -/
def ColumnList.Owns (l : ColumnList) (w : World) (addr : Nat) : Prop :=
  ∃ table, l.columns = .array table ∧
    (addr = table.addr ∨ ∃ c, .array c ∈ w.elementsOf table ∧ addr = c.addr)

/-- Lists, each with the rows that should be in it. -/
abbrev ColumnLists : Type := List (ColumnList × List (List Value))

/-- What a world and the lists of a factory can come to be, with the rows that should be in each
list: the field values of the records that have been appended to it, as they were then. -/
inductive ColumnAccess.Reaches (access : ColumnAccess) : World → ColumnLists → Prop
  | start (w : World) : Reaches access w []
  | created {w w' : World} {lists : ColumnLists} {l : ColumnList} (h : Reaches access w lists)
      (hrun : access.newList w = .ok l w') :
      Reaches access w' (lists ++ [(l, [])])
  /-- An attempt to append a value. Records of the schema have field values of the fields' types,
  but nothing is assumed of other values. -/
  | pushed {w w' : World} {lists : ColumnLists} {k : Nat} {l l' : ColumnList}
      {rows : List (List Value)} {v : Value} {failure : Option Exception}
      (h : Reaches access w lists) (hk : lists[k]? = some (l, rows)) (hv : access.schema.Trusts w v)
      (hrun : l.push v w = .ok (l', failure) w') :
      Reaches access w' (lists.set k (l', ColumnList.rowsAfter rows (v.fieldsIn w) failure))
  | read {w w' : World} {lists : ColumnLists} {k i : Nat} {l : ColumnList}
      {rows : List (List Value)} (h : Reaches access w lists) (hk : lists[k]? = some (l, rows))
      (hrun : (∃ v, l.get i w = .ok v w') ∨ ∃ e, l.get i w = .thrown e w') :
      Reaches access w' lists
  /-- Records are changed, and whatever else is not an array of a list. -/
  | changed {w w' : World} {lists : ColumnLists} (h : Reaches access w lists)
      (hkept : ∀ p ∈ lists, ∀ a, p.1.Owns w a → w'.arrays[a]? = w.arrays[a]?) :
      Reaches access w' lists

/-! ## Lists side by side -/

theorem ColumnList.Holds.owns_of_mem {l : ColumnList} {s : Schema} {w : World} {store : ColumnStore}
    {rows : List (List Value)} {a : Nat} (h : l.Holds s w store rows) (ha : a ∈ store.addrs) :
    l.Owns w a := by
  refine ⟨store.table, h.columns_eq, (List.mem_cons.1 ha).imp_right fun ha => ?_⟩
  obtain ⟨c, hc, rfl⟩ := List.mem_map.1 ha
  exact ⟨c, h.hasColumns.elements_eq ▸ List.mem_map_of_mem hc, rfl⟩

/-- The lists of a factory hold the rows that they should, and no two of them share an array. -/
structure ColumnAccess.Separate (s : Schema) (w : World) (lists : ColumnLists)
    (store : Nat → ColumnStore) : Prop where
  holds : ∀ {k : Nat} {l : ColumnList} {rows : List (List Value)}, lists[k]? = some (l, rows) →
    l.Holds s w (store k) rows
  disjoint : ∀ {j k : Nat}, j < lists.length → k < lists.length → j ≠ k →
    (store j).addrs.Disjoint (store k).addrs

namespace ColumnAccess.Separate

variable {s : Schema} {w w' : World} {lists : ColumnLists} {store : Nat → ColumnStore}
  {store' : ColumnStore} {l l' : ColumnList} {rows rows' : List (List Value)} {k : Nat}

theorem allocated (h : Separate s w lists store) (hk : k < lists.length) {a : Nat}
    (ha : a ∈ (store k).addrs) : a < w.arrays.size :=
  (h.holds (List.getElem?_eq_getElem hk)).hasColumns.allocated a ha

/-- What touches no array of a list changes no list. -/
theorem frame (h : Separate s w lists store)
    (hkept : ∀ k, k < lists.length → ∀ a ∈ (store k).addrs, w'.arrays[a]? = w.arrays[a]?) :
    Separate s w' lists store where
  holds hk := (h.holds hk).frame (hkept _ (List.getElem?_eq_some_iff.1 hk).1)
  disjoint := h.disjoint

/-- One list has changed or has come to be, and the arrays of all others are as they were. -/
theorem update (h : Separate s w lists store) {lists' : ColumnLists}
    (hk : lists'[k]? = some (l', rows')) (hothers : ∀ j, j ≠ k → lists'[j]? = lists[j]?)
    (hl' : l'.Holds s w' store' rows')
    (hkept : ∀ j, j < lists.length → j ≠ k → ∀ a ∈ (store j).addrs, w'.arrays[a]? = w.arrays[a]?)
    (hdisjoint : ∀ j, j < lists.length → j ≠ k → (store j).addrs.Disjoint store'.addrs) :
    Separate s w' lists' (Function.update store k store') := by
  have hlt : ∀ {j}, j < lists'.length → j ≠ k → j < lists.length := fun hj hjk =>
    (List.getElem?_eq_some_iff.1 ((hothers _ hjk).symm.trans (List.getElem?_eq_getElem hj))).1
  constructor
  · intro j l rows hj
    by_cases hjk : j = k
    · subst hjk
      cases hk.symm.trans hj
      rw [Function.update_self]
      exact hl'
    · rw [hothers j hjk] at hj
      rw [Function.update_of_ne hjk]
      exact (h.holds hj).frame (hkept j (List.getElem?_eq_some_iff.1 hj).1 hjk)
  · intro i j hi hj hij
    -- the list that has changed shares no array with another, and no two others do
    by_cases hik : i = k
    · subst hik
      rw [Function.update_self, Function.update_of_ne (Ne.symm hij)]
      exact fun a ha ha' => hdisjoint j (hlt hj (Ne.symm hij)) (Ne.symm hij) ha' ha
    · rw [Function.update_of_ne hik]
      by_cases hjk : j = k
      · subst hjk
        rw [Function.update_self]
        exact hdisjoint i (hlt hi hik) hik
      · rw [Function.update_of_ne hjk]
        exact h.disjoint (hlt hi hik) (hlt hj hjk) hij

/-- An operation on one list leaves all other lists alone. -/
theorem set (h : Separate s w lists store) (hk : k < lists.length)
    (hl' : l'.Holds s w' store' rows') (hevolves : (store k).Evolves store' w w') :
    Separate s w' (lists.set k (l', rows')) (Function.update store k store') := by
  refine h.update (List.getElem?_set_self hk) (fun j hjk => List.getElem?_set_ne (Ne.symm hjk)) hl'
    (fun j hj hjk a ha => ?_) fun j hj hjk a ha ha' => ?_
  · exact hevolves.changesOnly.kept a (h.allocated hj ha) (h.disjoint hj hk hjk ha)
  · -- an array that the list has come to have is new, and so is none of another list
    exact (hevolves.renewed a ha').elim (h.disjoint hj hk hjk ha)
      (Nat.not_le_of_lt (h.allocated hj ha))

/-- A new list has none of the arrays of the lists that were there. -/
theorem append (h : Separate s w lists store) (hl' : l'.Holds s w' store' rows')
    (hchanges : World.ChangesOnly [] w w') (hnew : ∀ a ∈ store'.addrs, w.arrays.size ≤ a) :
    Separate s w' (lists ++ [(l', rows')]) (Function.update store lists.length store') := by
  refine h.update List.getElem?_concat_length (fun j hj => ?_) hl' (fun j hj _ a ha => ?_)
    fun j hj _ a ha ha' => Nat.not_le_of_lt (h.allocated hj ha) (hnew a ha')
  · rcases Nat.lt_or_gt_of_ne hj with hlt | hgt
    · exact List.getElem?_append_left hlt
    · rw [List.getElem?_eq_none (Nat.le_of_lt hgt), List.getElem?_eq_none]
      rw [List.length_append]
      exact hgt
  · exact hchanges.kept a (h.allocated hj ha) List.not_mem_nil

end ColumnAccess.Separate

/-- Along every course, each list holds its rows in arrays of its own. -/
theorem ColumnAccess.Reaches.exists_separate {access : ColumnAccess} {s : Schema} {w : World}
    {lists : ColumnLists} (hworks : access.Works s) (hbound : s.fields.length ≤ 0x80000000)
    (hfields : s.fields ≠ []) (h : access.Reaches w lists) :
    ∃ store, Separate s w lists store := by
  -- on the steps of the course; a run has one outcome, which is the one that its lemma describes
  induction h with
  | start w => exact ⟨fun _ => ⟨⟨.any, 0⟩, []⟩, nofun, nofun⟩
  | @created w w' lists l _ hrun ih =>
    obtain ⟨store, hseparate⟩ := ih
    obtain ⟨l₁, w₁, store', hrun₁, hholds, -, hchanges, hnew⟩ := hworks.exists_newList w
    cases hrun₁.symm.trans hrun
    exact ⟨_, hseparate.append hholds hchanges hnew⟩
  | @pushed w w' lists k l l' rows v failure _ hk hv hrun ih =>
    obtain ⟨store, hseparate⟩ := ih
    obtain ⟨l₁, failure₁, w₁, store', hrun₁, -, -, hholds, hevolves⟩ :=
      (hseparate.holds hk).exists_push hbound hfields (hworks.schema_eq ▸ hv)
    cases hrun₁.symm.trans hrun
    exact ⟨_, hseparate.set (List.getElem?_eq_some_iff.1 hk).1 hholds hevolves⟩
  | @read w w' lists k i l rows _ hk hrun ih =>
    obtain ⟨store, hseparate⟩ := ih
    exact ⟨store, hseparate.frame fun _ _ a _ =>
      congrArg (·[a]?) ((hseparate.holds hk).arrays_eq_of_get hbound hrun)⟩
  | @changed w w' lists _ hkept ih =>
    obtain ⟨store, hseparate⟩ := ih
    refine ⟨store, hseparate.frame fun j hj a ha => ?_⟩
    exact hkept _ (List.getElem_mem hj) a
      ((hseparate.holds (List.getElem?_eq_getElem hj)).owns_of_mem ha)

/-- With more fields than there are positions, all lists stay empty. -/
theorem ColumnAccess.Reaches.stuck {access : ColumnAccess} {s : Schema} {w : World}
    {lists : ColumnLists} (hworks : access.Works s) (hwide : 0x80000000 < s.fields.length)
    (h : access.Reaches w lists) :
    ∀ p ∈ lists, p.1.Stuck s ∧ p.2 = [] := by
  induction h with
  | start w => exact nofun
  | @created w w' lists l _ hrun ih =>
    obtain ⟨l₁, w₁, store, hrun₁, hholds, hcapacity, -⟩ := hworks.exists_newList w
    cases hrun₁.symm.trans hrun
    exact List.forall_mem_append.2 ⟨ih, List.forall_mem_singleton.2 ⟨⟨hholds.works,
      ⟨_, hholds.columns_eq⟩, hholds.length_eq, hcapacity⟩, rfl⟩⟩
  | @pushed w w' lists k l l' rows v failure _ hk hv hrun ih =>
    obtain ⟨hstuck, hrows⟩ := ih _ (List.mem_of_getElem? hk)
    obtain ⟨e, w₁, hrun₁⟩ := hstuck.exists_push hwide v w
    cases hrun₁.symm.trans hrun
    intro p hp
    obtain hp | rfl := List.mem_or_eq_of_mem_set hp
    · exact ih p hp
    · exact ⟨hstuck, hrows⟩
  | read _ _ _ ih => exact ih
  | changed _ _ ih => exact ih

/-! ## Refinement -/

/-- What can be observed of a list is what a list of rows shows, and the columns are as long as the
capacity says. -/
structure ColumnList.Refines (l : ColumnList) (s : Schema) (w : World) (rows : List (List Value)) :
    Prop where
  length_eq : l.length = rows.length
  /-- What is read is a new record, which nothing else refers to. -/
  get_eq : ∀ i row, rows[i]? = some row →
    l.get i w = .ok (.record ⟨s, w.records.size⟩) { w with records := w.records.push row }
  get_thrown : ∀ i, l.length ≤ i → ∃ message,
    l.get i w = .thrown ⟨w.nextId, "IndexOutOfBoundsException", message⟩
      { w with nextId := w.nextId + 1 }
  push_ends : ∀ v, s.Trusts w v → ∃ l' failure w', l.push v w = .ok (l', failure) w' ∧
    (failure = none ↔ s.isInstance v = true ∧ s.fields.length ≤ 0x80000000 ∧ l.HasRoom)
  length_le : l.length ≤ l.capacity
  /-- The columns of a schema stand at integer positions of a table. A list of a schema with more
  fields never takes a record, and columns are not resized together then. -/
  columns : s.fields.length ≤ 0x80000000 → ∃ store, l.columns = .array store.table ∧
    w.HasColumns s store l.capacity

/-- A list that holds rows shows them. -/
theorem ColumnList.Holds.refines {l : ColumnList} {s : Schema} {w : World} {store : ColumnStore}
    {rows : List (List Value)} (h : l.Holds s w store rows) (hfields : s.fields ≠ [])
    (hbound : s.fields.length ≤ 0x80000000) : l.Refines s w rows where
  length_eq := h.length_eq
  get_eq i row hrow := h.get_apply hbound hrow
  get_thrown i hi := get_apply_of_length_le hi
  push_ends v hv := by
    obtain ⟨l', failure, w', -, hrun, hiff, -⟩ := h.exists_push hbound hfields hv
    refine ⟨l', failure, w', hrun, hiff.trans (and_congr_right fun _ => ?_)⟩
    exact (and_iff_right hbound).symm
  length_le := h.length_le
  columns _ := ⟨store, h.columns_eq, h.hasColumns⟩

theorem ColumnList.Stuck.refines {l : ColumnList} {s : Schema} (h : l.Stuck s)
    (hwide : 0x80000000 < s.fields.length) (w : World) : l.Refines s w [] where
  length_eq := h.length_eq
  get_eq i row hrow := nomatch hrow
  get_thrown i hi := get_apply_of_length_le hi
  push_ends v hv := by
    obtain ⟨e, w', hrun⟩ := h.exists_push hwide v w
    exact ⟨l, some e, w', hrun, nofun, fun hpushed => absurd hpushed.2.1 (Nat.not_le_of_lt hwide)⟩
  length_le := h.length_eq ▸ Nat.zero_le _
  columns hbound := absurd hbound (Nat.not_le_of_lt hwide)

/-- After any course, each list has the rows that it should. -/
theorem ColumnAccess.Reaches.refines {access : ColumnAccess} {s : Schema} {w : World}
    {lists : ColumnLists} (hworks : access.Works s) (hfields : s.fields ≠ [])
    (h : access.Reaches w lists) {l : ColumnList} {rows : List (List Value)}
    (hmem : (l, rows) ∈ lists) : l.Refines s w rows := by
  -- with more fields than there are positions, no list ever takes a record
  rcases Nat.lt_or_ge (0x80000000) s.fields.length with hwide | hbound
  · obtain ⟨hstuck, rfl⟩ := h.stuck hworks hwide (l, rows) hmem
    exact hstuck.refines hwide w
  · obtain ⟨store, hseparate⟩ := h.exists_separate hworks hbound hfields
    obtain ⟨k, hk⟩ := List.mem_iff_getElem?.1 hmem
    exact (hseparate.holds hk).refines hfields hbound

/-- The factory of a schema with fields can be composed, and its lists are lists of rows: after any
course, each list has the rows that it should, whatever has happened to the other lists and to the
records that have been appended or read. An attempt to append a value always ends. It succeeds for
records of this very schema only, and for these unless the positions or the capacity would be no
integers; when it fails, the list has the same rows as before. -/
theorem ColumnAccess.compose_refines_rows (s : Schema) (hfields : s.fields ≠ []) (σ : Supply) :
    ∃ access σ', Gives (compose s) σ access σ' ∧ access.schema = s ∧
      (∀ w, ∃ l w', access.newList w = .ok l w') ∧
      ∀ w lists, access.Reaches w lists → ∀ l rows, (l, rows) ∈ lists → l.Refines s w rows := by
  obtain ⟨access, σ', hgives, hworks⟩ := exists_compose s σ
  refine ⟨access, σ', hgives, hworks.schema_eq, fun w => ?_, fun w lists hreaches l rows hmem => ?_⟩
  · obtain ⟨l, w', -, hrun, -⟩ := hworks.exists_newList w
    exact ⟨l, w', hrun⟩
  · exact hreaches.refines hworks hfields hmem

/-- A list refuses null, takes a record that is made afterwards, and gives back a new one with the
same field values. -/
theorem ColumnAccess.compose_refines_rows_of_point :
    ∃ (s : Schema) (access : ColumnAccess) (σ : Supply) (l l₁ l₂ : ColumnList) (w w₁ w₂ : World)
      (e : Exception),
      s.fields = [⟨"x", .int⟩] ∧ Gives (compose s) {} access σ ∧ access.newList {} = .ok l w ∧
      l.push .null w = .ok (l₁, some e) w₁ ∧ l₁.length = 0 ∧
      l₁.push (.record ⟨s, 0⟩) { w₁ with records := #[[.int 5]] } = .ok (l₂, none) w₂ ∧
      l₂.length = 1 ∧
      l₂.get 0 w₂ =
        .ok (.record ⟨s, w₂.records.size⟩) { w₂ with records := w₂.records.push [.int 5] } := by
  let s : Schema := ⟨0, "Point", [⟨"x", .int⟩], by decide, by decide⟩
  obtain ⟨access, σ, hgives, hschema, hnew, hrefines⟩ :=
    compose_refines_rows s (List.cons_ne_nil _ _) {}
  obtain ⟨l, w, hrun⟩ := hnew {}
  have hreaches : access.Reaches w [(l, [])] := (Reaches.start {}).created hrun
  have hl : l.Refines s w [] := hrefines w _ hreaches l [] List.mem_cons_self
  have hnull : s.Trusts w .null := nofun
  obtain ⟨l₁, failure, w₁, hrefused, hiff⟩ := hl.push_ends .null hnull
  obtain ⟨e, rfl⟩ : ∃ e, failure = some e := Option.ne_none_iff_exists'.1 fun hpushed =>
    absurd (hiff.1 hpushed).1 (by decide)
  let w₁' : World := { w₁ with records := #[[.int 5]] }
  have hreaches₁ : access.Reaches w₁' [(l₁, [])] :=
    (hreaches.pushed (k := 0) rfl (hschema ▸ hnull) hrefused).changed fun _ _ _ _ => rfl
  have hl₁ : l₁.Refines s w₁' [] := hrefines w₁' _ hreaches₁ l₁ [] List.mem_cons_self
  have hrecord : s.Trusts w₁' (.record ⟨s, 0⟩) := fun _ => Fits.cons rfl Fits.nil
  have hroom : l₁.HasRoom := .inr (by
    rw [ColumnList.nextCapacity, hl₁.length_eq]
    decide)
  obtain ⟨l₂, failure, w₂, hpush, hiff⟩ := hl₁.push_ends _ hrecord
  obtain rfl : failure = none := hiff.2 ⟨by decide, by decide, hroom⟩
  have hreaches₂ : access.Reaches w₂ [(l₂, [[.int 5]])] :=
    hreaches₁.pushed (k := 0) rfl (hschema ▸ hrecord) hpush
  have hl₂ : l₂.Refines s w₂ [[.int 5]] := hrefines w₂ _ hreaches₂ l₂ _ List.mem_cons_self
  exact ⟨s, access, σ, l, l₁, l₂, w, w₁, w₂, e, rfl, hgives, hrun, hrefused, hl₁.length_eq, hpush,
    hl₂.length_eq, hl₂.get_eq 0 _ rfl⟩

end Splice
