import Mathlib.Data.List.Forall2
import Mathlib.Data.List.Perm.Subperm
import Mathlib.Logic.Relation
import Splice.Store.Text

/-!
# Objects inside one another

The written form of a record or an array has those of the objects in it inside. `World.Holds` is the
relation of an object to those directly in it, and a value is free of cycles if none of the objects
that are reached from it is reached from itself. Exactly these values have a written form: depth is
not what they lack, since a path through more objects than the world has comes back to one of them.
-/

namespace Splice

open Relation (ReflTransGen TransGen)

/-- A mutable object whose content is written out. -/
inductive Object where
  | record (r : Record)
  | array (a : ArrayRef)

namespace Object

def value : Object → Value
  | record r => .record r
  | array a => .array a

/-- The written form of an object, given those of the values in it. -/
def text : Object → List String → String
  | record r, texts => r.schema.recordText texts
  | array _, texts => bracketed texts

end Object

/-! ## Objects in values -/

namespace Value

mutual

/-- The objects that a value is or has in nested lists. -/
def objects : Value → List Object
  | record r => [.record r]
  | array a => [.array a]
  | list _ items => objectsAll items
  | _ => []

def objectsAll : List Value → List Object
  | [] => []
  | v :: vs => objects v ++ objectsAll vs

end

variable {object object' : Value → Option String}

mutual

/-- A value can be written if the objects in it can. -/
theorem isSome_textWith_iff {v : Value} :
    (textWith object v).isSome ↔ ∀ o ∈ v.objects, (object o.value).isSome := by
  cases v
  case list id items =>
    rw [textWith, objects, Option.isSome_map]
    exact isSome_textsWith_iff
  all_goals simp [textWith, objects, Object.value]

/-- Values in a list can be written if the objects in them can. -/
theorem isSome_textsWith_iff {vs : List Value} :
    (textsWith object vs).isSome ↔ ∀ o ∈ objectsAll vs, (object o.value).isSome := by
  cases vs with
  | nil => simp [textsWith, objectsAll]
  | cons v vs =>
    have hfirst : (textWith object v).isSome ↔ _ := isSome_textWith_iff
    have hrest : (textsWith object vs).isSome ↔ _ := isSome_textsWith_iff
    rw [objectsAll, List.forall_mem_append, ← hfirst, ← hrest]
    cases h : textWith object v <;> cases h' : textsWith object vs <;> simp [textsWith, h, h']

end

mutual

/-- Of the objects, only those in a value matter for its written form. -/
theorem textWith_congr {v : Value} (h : ∀ o ∈ v.objects, object o.value = object' o.value) :
    textWith object v = textWith object' v := by
  cases v
  case list id items =>
    rw [textWith, textWith, textsWith_congr h]
  case record r => exact h (.record r) (List.mem_singleton.2 rfl)
  case array a => exact h (.array a) (List.mem_singleton.2 rfl)
  all_goals rfl

/-- Of the objects, only those in a list matter for its written form. -/
theorem textsWith_congr {vs : List Value}
    (h : ∀ o ∈ objectsAll vs, object o.value = object' o.value) :
    textsWith object vs = textsWith object' vs := by
  cases vs with
  | nil => rfl
  | cons v vs =>
    obtain ⟨hfirst, hrest⟩ := List.forall_mem_append.1 h
    rw [textsWith, textsWith, textWith_congr hfirst, textsWith_congr hrest]

end

/-- Values in a list are written one by one. -/
theorem textsWith_eq_some_iff {vs : List Value} {texts : List String} :
    textsWith object vs = some texts ↔
      List.Forall₂ (fun v text => textWith object v = some text) vs texts := by
  induction vs generalizing texts with
  | nil => simp [textsWith, eq_comm]
  | cons v vs ih =>
    cases texts with
    | nil => simp [textsWith, Option.bind_eq_some_iff]
    | cons text texts => simp [textsWith, Option.bind_eq_some_iff, ih]

end Value

namespace World

variable {w : World} {o p : Object} {v : Value} {depth : Nat}

/-- The values in an object. -/
def contents (w : World) : Object → List Value
  | .record r => w.fieldsOf r
  | .array a => w.elementsOf a

/-- An object is directly in another one, itself or in nested lists. -/
def Holds (w : World) (o p : Object) : Prop := p ∈ Value.objectsAll (w.contents o)

/-- No object that is reached from a value is reached from itself. -/
def CycleFree (w : World) (v : Value) : Prop :=
  ∀ o ∈ v.objects, ∀ p, ReflTransGen w.Holds o p → ¬ TransGen w.Holds p p

/-- The written form of an object is made of those of what is in it, written less deep. -/
theorem objectText?_succ (w : World) (depth : Nat) (o : Object) :
    w.objectText? (depth + 1) o.value =
      (Value.textsWith (w.objectText? depth) (w.contents o)).map o.text := by
  cases o <;> rfl

/-- An object can be written if those directly in it can be written less deep. -/
theorem isSome_objectText?_succ_iff :
    (w.objectText? (depth + 1) o.value).isSome ↔
      ∀ p, w.Holds o p → (w.objectText? depth p.value).isSome := by
  rw [objectText?_succ, Option.isSome_map, Value.isSome_textsWith_iff]
  rfl

/-! ## Written forms and cycles -/

/-- An object that can be written is on no cycle, and neither is any that is reached from it. -/
theorem not_transGen_of_isSome_objectText? (h : (w.objectText? depth o.value).isSome)
    (hreach : ReflTransGen w.Holds o p) : ¬ TransGen w.Holds p p := by
  induction depth generalizing o p with
  | zero => exact nomatch h
  | succ depth ih =>
    intro hcycle
    -- the path to the cycle or the cycle itself starts with a step to an object written less deep
    obtain ⟨q, hq, hqp⟩ : ∃ q, w.Holds o q ∧ ReflTransGen w.Holds q p := by
      obtain rfl | hstep := ReflTransGen.cases_head hreach
      · exact TransGen.head'_iff.1 hcycle
      · exact hstep
    exact ih (isSome_objectText?_succ_iff.1 h q hq) hqp hcycle

/-- What cannot be written to some depth has a path of that many objects below it. -/
theorem exists_path_of_objectText?_eq_none (h : w.objectText? depth o.value = none) :
    ∃ path : List Object, path.length = depth ∧ path.Pairwise (TransGen w.Holds) ∧
      ∀ p ∈ path, ReflTransGen w.Holds o p ∧ ∃ q, w.Holds p q := by
  induction depth generalizing o with
  | zero => exact ⟨[], rfl, .nil, nofun⟩
  | succ depth ih =>
    -- the first object that cannot be written starts the path below
    obtain ⟨q, hq, hnone⟩ : ∃ q, w.Holds o q ∧ w.objectText? depth q.value = none := by
      have hsome := isSome_objectText?_succ_iff.not.1 (Option.not_isSome_iff_eq_none.2 h)
      simpa using hsome
    obtain ⟨path, hlength, hpairwise, hreach⟩ := ih hnone
    refine ⟨o :: path, congrArg (· + 1) hlength, List.pairwise_cons.2 ⟨fun p hp => ?_, hpairwise⟩,
      List.forall_mem_cons.2 ⟨⟨.refl, q, hq⟩, fun p hp => ?_⟩⟩
    · exact .head' hq (hreach p hp).1
    · exact ⟨.head hq (hreach p hp).1, (hreach p hp).2⟩

/-- An object has been given out. -/
def Allocated (w : World) : Object → Prop
  | .record r => r.addr < w.records.size
  | .array a => a.addr < w.arrays.size

/-- An object that holds something is there. -/
theorem allocated_of_holds (h : w.Holds o p) : w.Allocated o := by
  by_contra hout
  have hempty : w.contents o = [] := by
    cases o <;> simp_all [Allocated, contents, fieldsOf, elementsOf]
  rw [Holds, hempty] at h
  exact absurd h List.not_mem_nil

/-- The number of an object among those of the world, the records before the arrays. -/
def number (w : World) : Object → Nat
  | .record r => r.addr
  | .array a => w.records.size + a.addr

/-- Objects that are there have numbers below the number of all. -/
theorem number_lt (h : w.Allocated o) : w.number o < w.records.size + w.arrays.size := by
  cases o <;> simp only [Allocated, number] at * <;> omega

/-- The number of an object tells what is in it. -/
theorem contents_eq_of_number_eq (ho : w.Allocated o) (hp : w.Allocated p)
    (h : w.number o = w.number p) : w.contents o = w.contents p := by
  cases o <;> cases p <;> simp only [Allocated, number] at ho hp h
  case record.record => rw [contents, contents, fieldsOf, fieldsOf, h]
  case array.array => rw [contents, contents, elementsOf, elementsOf, Nat.add_left_cancel h]
  all_goals omega

/-- A value without cycles can be written. -/
theorem isSome_text?_of_cycleFree (h : w.CycleFree v) : (w.text? v).isSome := by
  refine Value.isSome_textWith_iff.2 fun o ho => ?_
  by_contra hnone
  obtain ⟨path, hlength, hpairwise, hreach⟩ :=
    exists_path_of_objectText?_eq_none (Option.not_isSome_iff_eq_none.1 hnone)
  -- an object further down a path with the number of one further up has the same in it: a cycle
  have hnodup : (path.map w.number).Nodup := by
    refine List.pairwise_map.2 (hpairwise.imp_of_mem fun {p p'} hp hp' hbelow hnumber => ?_)
    obtain ⟨q, hq, hqp'⟩ := TransGen.head'_iff.1 hbelow
    obtain ⟨q', hq'⟩ := (hreach p' hp').2
    have hsame := contents_eq_of_number_eq (allocated_of_holds hq) (allocated_of_holds hq') hnumber
    have hback : w.Holds p' q := by
      rwa [Holds, ← hsame]
    exact h o ho q (.tail (hreach p hp).1 hq) (.tail' hqp' hback)
  have hsubset : path.map w.number ⊆ List.range (w.records.size + w.arrays.size) := by
    intro n hn
    obtain ⟨p, hp, rfl⟩ := List.mem_map.1 hn
    obtain ⟨q, hq⟩ := (hreach p hp).2
    exact List.mem_range.2 (number_lt (allocated_of_holds hq))
  -- a path that long has more objects than there are numbers
  have hle := (List.subperm_of_subset hnodup hsubset).length_le
  rw [List.length_map, hlength, List.length_range, depthBound] at hle
  exact Nat.not_succ_le_self _ hle

/-- Exactly the values without cycles can be written. -/
theorem isSome_text?_iff : (w.text? v).isSome ↔ w.CycleFree v :=
  ⟨fun h o ho _ => not_transGen_of_isSome_objectText? (Value.isSome_textWith_iff.1 h o ho),
    isSome_text?_of_cycleFree⟩

/-! ## Written forms of what is in a record -/

/-- What can be written to some depth is written the same to a greater depth. -/
theorem objectText?_of_le {depth' : Nat} (h : (w.objectText? depth o.value).isSome)
    (hle : depth ≤ depth') : w.objectText? depth' o.value = w.objectText? depth o.value := by
  induction depth generalizing o depth' with
  | zero => exact nomatch h
  | succ depth ih =>
    obtain ⟨depth', rfl⟩ := Nat.exists_eq_succ_of_ne_zero (Nat.ne_zero_of_lt hle)
    rw [objectText?_succ, objectText?_succ, Value.textsWith_congr fun p hp =>
      ih (isSome_objectText?_succ_iff.1 h p hp) (Nat.le_of_succ_le_succ hle)]

/-- The written form of a record has those of its fields in it. -/
theorem exists_texts_of_text?_record {r : Record} {text : String}
    (h : w.text? (.record r) = some text) :
    ∃ texts, List.Forall₂ (fun v text => w.text? v = some text) (w.fieldsOf r) texts ∧
      r.schema.recordText texts = text := by
  have hwritten : w.objectText? (w.records.size + w.arrays.size + 1) (Object.record r).value =
      some text := h
  have hfields := isSome_objectText?_succ_iff.1 (Option.isSome_of_eq_some hwritten)
  rw [objectText?_succ, Option.map_eq_some_iff] at hwritten
  obtain ⟨texts, htexts, htext⟩ := hwritten
  refine ⟨texts, Value.textsWith_eq_some_iff.1 (.trans ?_ htexts), htext⟩
  exact Value.textsWith_congr fun p hp => objectText?_of_le (hfields p hp) (Nat.le_succ _)

/-- The objects alone matter for a written form. -/
theorem text?_congr {w' : World} (hrecords : w'.records = w.records)
    (harrays : w'.arrays = w.arrays) : w'.text? v = w.text? v := by
  have hcontents : w'.contents = w.contents := by
    funext o
    cases o with
    | record r => rw [contents, contents, fieldsOf, fieldsOf, hrecords]
    | array a => rw [contents, contents, elementsOf, elementsOf, harrays]
  have hobject : ∀ depth o,
      w'.objectText? depth (Object.value o) = w.objectText? depth o.value := by
    intro depth
    induction depth with
    | zero => exact fun _ => rfl
    | succ depth ih =>
      intro o
      rw [objectText?_succ, objectText?_succ, hcontents, Value.textsWith_congr fun p _ => ih p]
  rw [text?, text?, depthBound, depthBound, hrecords, harrays]
  exact Value.textWith_congr fun o _ => hobject _ o

/-- The next identity does not matter for a written form. -/
theorem text?_nextId (w : World) (k : Nat) (v : Value) :
    { w with nextId := k }.text? v = w.text? v := text?_congr rfl rfl

end World

end Splice
