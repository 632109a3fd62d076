import Splice.Fieldwise.Text
import Splice.Proofs.Closure.Operands
import Splice.Proofs.Scope.Program
import Splice.Proofs.Store.Objects
import Splice.Proofs.Store.Text

/-!
# Field-wise text

The handle of the field-wise text is composed for every schema and appends the fields of a record to
a text one after the other, each with a separator in front that is empty for the first one. What it
returns is the written form of the record, which has the separators between the fields, for every
record with a written form. Texts are new objects, so the supply of identities moves on; nothing
else in the world does.
-/

namespace Splice

/-- The written form of a value as a new text. -/
def Value.toText (v : Value) : Exec Value := do Exec.newStr (← Exec.textOf v)

/-- The written form is computed of every operand with a value. -/
theorem Closure.exists_toText {a : Expr} {vars : List Var} {ty : Ty} {x : Env → Exec Value}
    (ha : a.Computes vars ty x) (hty : ty ≠ .void) :
    ∃ c, toText a = .ok c ∧ c.Computes vars .str fun env => (do (← x env).toText) :=
  exists_unary ha hty .str _

/-! ## Runs that write

The identities of texts are of no interest, and so neither is how many are left.
-/

/-- Whatever identities are left, a run returns a text and takes nothing but identities from a
world. -/
def Exec.Writes (x : Exec Value) (w : World) (text : String) : Prop :=
  ∀ k, ∃ id k', x { w with nextId := k } = .ok (.str id text) { w with nextId := k' }

section

variable {w : World} {v : Value} {text text' : String}

namespace Exec.Writes

/-- A text that is there is returned as it is. -/
theorem pure (w : World) (id : Nat) (text : String) :
    (Pure.pure (.str id text) : Exec Value).Writes w text := fun k => ⟨id, k, rfl⟩

/-- What is written first is handed on, whatever identity it has got. -/
theorem bind {x : Exec Value} {f : Value → Exec Value} (hx : x.Writes w text)
    (hf : ∀ id, (f (.str id text)).Writes w text') : (x >>= f).Writes w text' := by
  intro k
  obtain ⟨id, k₁, hok⟩ := hx k
  obtain ⟨id', k₂, hok'⟩ := hf id k₁
  exact ⟨id', k₂, (bind_of_ok hok).trans hok'⟩

end Exec.Writes

/-- A value with a written form has it read off the world. -/
theorem Exec.textOf_apply (h : w.text? v = some text) : textOf v w = .ok text w := by
  rw [textOf, bind_of_ok (rfl : world w = .ok w w), h]
  rfl

/-- A written form is a new text, so it takes an identity. -/
theorem Value.toText_writes (h : w.text? v = some text) : v.toText.Writes w text := by
  intro k
  exact ⟨k, k + 1, Exec.bind_of_ok (Exec.textOf_apply ((w.text?_nextId k v).trans h))⟩

/-- A text is appended to another one. -/
theorem Value.plus_writes (w : World) (id id' : Nat) (text text' : String) :
    ((Value.str id text).plus (.str id' text')).Writes w (text ++ text') := fun k => ⟨k, k + 1, rfl⟩

end

namespace Fieldwise

open Compose (Gives)
open Handle (argument)
open Scoped (Means Returns)

/-! ## The composed program -/

/-- Appends the name of the field at a position and the written form of its value to a text. -/
def appendField (s : Schema) (this : Value) (separator : String) (f : Field × Nat) (text : Value) :
    Exec Value := do
  let labelled ← text.plus (.str 0 (separator ++ f.1.name ++ "="))
  labelled.plus (← (← this.getField s f.2).toText)

/-- Appends fields to a text, with a separator in front of each. -/
def appendAll (s : Schema) (this : Value) :
    (separator : String) → List (Field × Nat) → Value → Exec Value
  | _, [], text => return text
  | separator, f :: rest, text => do
    appendAll s this ", " rest (← appendField s this separator f text)

/-- The written form of a record. -/
def write (s : Schema) (this : Value) : Exec Value := do
  let text ← appendAll s this "" s.fields.zipIdx (.str 0 (s.name ++ "\x7b"))
  text.plus (.str 0 "\x7d")

section

variable {s : Schema} {known : List Var} {this text : Var}

/-- A text in the program is a constant. -/
theorem exists_textConstant (vars : List Var) (text : String) :
    ∃ c, textConstant text = .ok c ∧ c.Computes vars .str fun _ => return .str 0 text :=
  Closure.exists_fixed vars nofun rfl

/-- Something is appended to a text. -/
theorem exists_append {e : Expr} {x : Env → Exec Value} (hmem : text ∈ known)
    (htext : text.ty = .str) (he : e.Computes known .str x) :
    ∃ c, Closure.plus text e = .ok c ∧
      c.Computes known .str fun env => (do (env text).plus (← x env)) := by
  obtain ⟨c, hc, hcomputes⟩ := Closure.exists_plus (Var.computes hmem htext) he rfl
  exact ⟨c, hc, hcomputes.congr fun env => pure_bind _ _⟩

/-- The steps for one field append its name and the written form of its value. -/
theorem means_appendField (hthis : this.ty = s.ty) (hmem : this ∈ known) (htext : text.ty = .str)
    (hmem' : text ∈ known) (separator : String) {i : Nat} {field : Field}
    (hfield : s.fields[i]? = some field) :
    Means known (do
        let label ← textConstant (separator ++ field.name ++ "=")
        let text ← Scoped.assign (← Closure.plus text label)
        let value ← Closure.toText (← Closure.getField s field.name this)
        Scoped.assign (← Closure.plus text value))
      (fun env => appendField s (env this) separator (field, i) (env text)) (·.ty = .str) := by
  obtain ⟨label, hlabel, hconstant⟩ :=
    exists_textConstant known (separator ++ field.name ++ "=")
  obtain ⟨c, hc, happends⟩ := exists_append hmem' htext hconstant.operand
  refine .lift_bind hlabel (.lift_bind hc (Means.bind (α := Var) (γ := Var)
    (y := fun env labelled => do labelled.plus (← (← (env this).getField s i).toText))
    (.assign (happends.congr fun env => pure_bind _ _) (by decide)) (fun v hv => ?_)
    fun env env' hagree => ?_))
  · -- the value is read after the label has been assigned, so one more variable is known
    obtain ⟨a, ha, hreads⟩ :=
      Closure.exists_fieldOf (List.mem_append_left [v] hmem) hthis hfield
    obtain ⟨b, hb, hwrites⟩ := Closure.exists_toText hreads
      (s.noVoid _ (List.mem_of_getElem? hfield))
    obtain ⟨d, hd, happends'⟩ := exists_append (List.mem_append_right known (by simp)) hv
      hwrites.operand
    refine .lift_bind ha (.lift_bind hb (.lift_bind hd (.assign (happends'.congr fun env => ?_)
      (by decide))))
    rw [bind_assoc]
    rfl
  · rw [hagree this hmem]

/-- The steps for the first field come first, and no later one has another separator in front. -/
theorem appendFields_cons (separator : String) (field : Field) (rest : List Field) :
    appendFields s this separator (field :: rest) text = (do
      let label ← textConstant (separator ++ field.name ++ "=")
      let text ← Scoped.assign (← Closure.plus text label)
      let value ← Closure.toText (← Closure.getField s field.name this)
      Scoped.assign (← Closure.plus text value)) >>= appendFields s this ", " rest := by
  rw [appendFields]
  simp only [bind_assoc]

/-- The steps for the fields from a position on append these fields. -/
theorem means_appendFields (hthis : this.ty = s.ty) (hmem : this ∈ known) (htext : text.ty = .str)
    (hmem' : text ∈ known) (separator : String) {fields : List Field} {i : Nat}
    (hfields : s.fields.drop i = fields) :
    Means known (appendFields s this separator fields text)
      (fun env => appendAll s (env this) separator (fields.zipIdx i) (env text)) (·.ty = .str) := by
  induction fields generalizing known text separator i with
  | nil => exact .pure (List.cons_subset.2 ⟨hmem', List.nil_subset _⟩) htext
  | cons field rest ih =>
    -- the first of the remaining fields is the one at the position that the rest starts from
    obtain ⟨hfield, hrest⟩ := getElem?_and_drop_of_drop hfields
    rw [appendFields_cons]
    refine Means.bind (α := Var) (γ := Var)
      (y := fun env v => appendAll s (env this) ", " (rest.zipIdx (i + 1)) v)
      (means_appendField hthis hmem htext hmem' separator hfield) (fun v hv => ?_)
      fun env env' hagree => ?_
    · exact ih (List.mem_append_left _ hmem) hv List.mem_concat_self ", " hrest
    · rw [hagree this hmem]

/-- The steps of the text up to the closing brace. -/
def openText (s : Schema) (this : Var) : Scoped Var := do
  let text ← Scoped.assign (← textConstant (s.name ++ "\x7b"))
  appendFields s this "" s.fields text

/-- The closure of the text with the closing brace. -/
def closeText (text : Var) : Except CompositionError Closure := do
  Closure.plus text (← textConstant "\x7d")

/-- The steps of the function fall into those up to the closing brace and the last one. -/
theorem toText_eq (s : Schema) :
    toText s = Scoped.function (do
      let this ← Scoped.addParam s.ty
      return .closure (← liftM (closeText (← openText s this)))) := by
  simp only [toText, openText, closeText, Scoped.liftM_bind, bind_assoc]

/-- The steps up to the closing brace append all fields to the name of the schema. -/
theorem means_openText (hthis : this.ty = s.ty) :
    Means [this] (openText s this)
      (fun env => appendAll s (env this) "" s.fields.zipIdx (.str 0 (s.name ++ "\x7b")))
      (·.ty = .str) := by
  obtain ⟨start, hstart, hconstant⟩ := exists_textConstant [this] (s.name ++ "\x7b")
  refine .lift_bind hstart (Means.bind (α := Var) (γ := Var)
    (y := fun env v => appendAll s (env this) "" s.fields.zipIdx v)
    (.assign hconstant (by decide)) (fun v hv => ?_) fun env env' hagree => ?_)
  · exact means_appendFields hthis (List.mem_append_left _ List.mem_cons_self) hv
      List.mem_concat_self "" List.drop_zero
  · rw [hagree this List.mem_cons_self]

/-- The last step appends the closing brace. -/
theorem exists_closeText (htext : text.ty = .str) :
    ∃ c, closeText text = .ok c ∧
      c.Computes [text] .str fun env => (env text).plus (.str 0 "\x7d") := by
  obtain ⟨brace, hbrace, hconstant⟩ := exists_textConstant [text] "\x7d"
  obtain ⟨c, hc, happends⟩ := exists_append List.mem_cons_self htext hconstant.operand
  exact ⟨c, bind_eq_ok_iff.2 ⟨brace, hbrace, hc⟩, happends.congr fun env => pure_bind _ _⟩

end

/-- The handle of the field-wise text is composed for every schema. -/
theorem exists_toText (s : Schema) (σ : Supply) :
    ∃ h σ', Gives (toText s) σ h σ' ∧
      h.Computes [s.ty] .str fun args => write s (argument args 0) := by
  rw [toText_eq]
  refine Scoped.exists_function (.addParam s.ty_ne_void fun this hthis => ?_) σ
  have htypes : [s.ty] = ([] ++ [this]).map Var.ty := by
    rw [List.nil_append, List.map_singleton, hthis]
  rw [htypes]
  refine Means.returns (α := Var) (y := fun text => text.plus (.str 0 "\x7d"))
    (means_openText hthis) (fun _ => exists_closeText) fun env => ?_
  simp only [reduceCtorEq, if_false, bind_pure]
  rfl

/-! ## What it writes -/

/-- Fields with the written forms of their values, each behind a separator. -/
def entries : (separator : String) → List (Field × String) → String
  | _, [] => ""
  | separator, (field, text) :: rest => separator ++ field.name ++ "=" ++ text ++ entries ", " rest

/-- The separator of the first field comes in front, and the others stand between the fields. -/
theorem entries_cons (separator : String) (f : Field × String) (rest : List (Field × String)) :
    entries separator (f :: rest) = separator ++
      ", ".intercalate ((f :: rest).map fun (field, text) => field.name ++ "=" ++ text) := by
  induction rest generalizing separator f with
  | nil => simp [entries, String.append_assoc]
  | cons g rest ih =>
    rw [entries, ih]
    simp only [List.map_cons, String.intercalate_cons_cons, String.append_assoc]

/-- Without a separator in front, the fields are written with separators between them. -/
theorem entries_empty (fields : List (Field × String)) :
    entries "" fields =
      ", ".intercalate (fields.map fun (field, text) => field.name ++ "=" ++ text) := by
  cases fields with
  | nil => simp [entries]
  | cons f rest => rw [entries_cons, String.empty_append]

section

variable {s : Schema} {w : World} {r : Record} {i : Nat}

/-- One field is appended as it is written. -/
theorem appendField_writes {v : Value} {text : String} (hr : r.schema = s)
    (hv : (w.fieldsOf r)[i]? = some v) (htext : w.text? v = some text) (field : Field)
    (separator start : String) (id : Nat) :
    (appendField s (.record r) separator (field, i) (.str id start)).Writes w
      (start ++ (separator ++ field.name ++ "=") ++ text) := by
  refine .bind (Value.plus_writes w id 0 start _) fun id' => ?_
  have hread : ((Value.record r).getField s i >>= Value.toText).Writes w text := by
    intro k
    have hfield : (Value.record r).getField s i { w with nextId := k } =
        .ok v { w with nextId := k } := Value.getField_apply hr hv
    obtain ⟨id'', k', hok⟩ := Value.toText_writes htext k
    exact ⟨id'', k', (Exec.bind_of_ok hfield).trans hok⟩
  -- reading and writing the value happen together, in front of the last step
  rw [← bind_assoc]
  exact hread.bind fun id'' => Value.plus_writes w id' id'' _ _

/-- The fields from a position on are appended with the written forms of their values. -/
theorem appendAll_writes {fields : List Field} {items : List Value} {texts : List String}
    (hr : r.schema = s) (hitems : (w.fieldsOf r).drop i = items)
    (htexts : List.Forall₂ (fun v text => w.text? v = some text) items texts)
    (hlength : fields.length = items.length) (separator start : String) (id : Nat) :
    (appendAll s (.record r) separator (fields.zipIdx i) (.str id start)).Writes w
      (start ++ entries separator (fields.zip texts)) := by
  induction htexts generalizing fields i separator start id with
  | nil =>
    rw [List.length_eq_zero_iff.1 hlength, List.zip_nil_right, entries, String.append_empty]
    exact .pure w id start
  | @cons v text items texts htext _ ih =>
    obtain ⟨field, rest, rfl⟩ := List.exists_cons_of_length_eq_add_one hlength
    obtain ⟨hv, hrest⟩ := getElem?_and_drop_of_drop hitems
    refine (appendField_writes hr hv htext field separator start id).bind fun id' => ?_
    have hbehind := ih hrest (Nat.succ.inj hlength) ", "
      (start ++ (separator ++ field.name ++ "=") ++ text) id'
    simpa only [List.zip_cons_cons, entries, String.append_assoc] using hbehind

/-- The text of a record is its written form. -/
theorem write_writes {text : String} (hr : r.schema = s) (hcomplete : r.Complete w)
    (htext : w.text? (.record r) = some text) : (write s (.record r)).Writes w text := by
  obtain ⟨texts, htexts, rfl⟩ := World.exists_texts_of_text?_record htext
  have hlength : s.fields.length = (w.fieldsOf r).length := by rw [hcomplete, hr]
  refine .bind (appendAll_writes hr List.drop_zero htexts hlength "" (s.name ++ "\x7b") 0)
    fun id => ?_
  rw [Schema.recordText, hr, ← entries_empty]
  exact Value.plus_writes w id 0 _ _

end

/-- The field-wise text of a record is the record's written form, for every record without cycles
in it. -/
theorem toText_eq_text (s : Schema) (σ : Supply) :
    ∃ h σ', Gives (toText s) σ h σ' ∧ h.params = [s.ty] ∧ h.ret = .str ∧
      ∀ (turns : Nat) (w : World) (r : Record), r.schema = s → r.Complete w →
        w.CycleFree (.record r) → ∃ text id k, w.text? (.record r) = some text ∧
          h.invoke turns [.record r] w = .ok (.str id text) { w with nextId := k } := by
  obtain ⟨h, σ', hgives, hcomputes⟩ := exists_toText s σ
  refine ⟨h, σ', hgives, hcomputes.params_eq, hcomputes.ret_eq,
    fun turns w r hr hcomplete hcycleFree => ?_⟩
  obtain ⟨text, htext⟩ := Option.isSome_iff_exists.1 (World.isSome_text?_iff.2 hcycleFree)
  obtain ⟨id, k, hok⟩ := write_writes hr hcomplete htext w.nextId
  have hfits : Fits [s.ty] [.record r] := .cons (Schema.ty_admits hr) .nil
  exact ⟨text, id, k, htext, (hcomputes.invoke_apply hfits).trans hok⟩

/-- An object that is met twice is written twice, and it is no cycle. -/
theorem toText_eq_text_of_tree :
    ∃ (s leaf : Schema) (w : World) (h : Handle) (σ' : Supply) (id k : Nat),
      w.records = #[[.record ⟨leaf, 1⟩, .list 0 [.int 1, .record ⟨leaf, 1⟩], .array ⟨.any, 0⟩,
        .null, .error ⟨1, "Late", "by a day"⟩], []] ∧
      w.arrays = #[[.array ⟨.long, 1⟩, .bool true], [.long 2, .long 3]] ∧
      Gives (toText s) {} h σ' ∧ h.invoke 0 [.record ⟨s, 0⟩] w =
        .ok (.str id ("Tree\x7bleaf=Leaf\x7b\x7d, list=[1, Leaf\x7b\x7d], array=[[2, 3], true], " ++
          "none=null, error=Late: by a day\x7d")) { w with nextId := k } := by
  let s : Schema := ⟨0, "Tree", [⟨"leaf", .record "Leaf"⟩, ⟨"list", .list .any⟩,
    ⟨"array", .array .any⟩, ⟨"none", .str⟩, ⟨"error", .error⟩], by decide, by decide⟩
  let leaf : Schema := ⟨1, "Leaf", [], by decide, by decide⟩
  let w : World :=
    { records := #[[.record ⟨leaf, 1⟩, .list 0 [.int 1, .record ⟨leaf, 1⟩], .array ⟨.any, 0⟩,
        .null, .error ⟨1, "Late", "by a day"⟩], []]
      arrays := #[[.array ⟨.long, 1⟩, .bool true], [.long 2, .long 3]] }
  have hwritten : w.text? (.record ⟨s, 0⟩) =
      some ("Tree\x7bleaf=Leaf\x7b\x7d, list=[1, Leaf\x7b\x7d], array=[[2, 3], true], " ++
        "none=null, error=Late: by a day\x7d") := by decide +kernel
  obtain ⟨h, σ', hgives, -, -, hlaw⟩ := toText_eq_text s {}
  obtain ⟨text, id, k, htext, hok⟩ := hlaw 0 w ⟨s, 0⟩ rfl rfl
    (World.isSome_text?_iff.1 (Option.isSome_of_eq_some hwritten))
  obtain rfl := Option.some.inj (htext.symm.trans hwritten)
  exact ⟨s, leaf, w, h, σ', id, k, rfl, rfl, hgives, hok⟩

end Fieldwise

end Splice
