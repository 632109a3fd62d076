import Splice.Value.Member
import Mathlib.Data.List.Basic

/-!
# Membership in list types

A list type looks at the elements one by one, but for erased elements, where every list is taken as
it is. The erased type has one value less than there are: it does not admit the absence of a value.
So the list types go by their elements except where `unit` is an element and the elements are
erased, and `Ty.admitsEach_iff` says so of nested lists at every depth.
-/

namespace Splice

namespace Value

theorem kind_eq_unit_iff {v : Value} : v.kind = .unit ↔ v = .unit := by
  cases v <;> simp [kind]

end Value

namespace Ty

/-- The erased type admits every value there is. -/
theorem admits_any_iff {v : Value} : any.admits v = true ↔ v ≠ .unit := by
  cases v <;> simp [admits, isReference, isPrimitive]

/-- A list is admitted as it is or element by element. -/
theorem admits_list_iff {elem : Ty} {id : Nat} {items : List Value} :
    (list elem).admits (.list id items) = true ↔
      elem = .any ∨ ∀ v ∈ items, elem.admits v = true := by
  simp [admits]

/-- A list type goes by the elements unless it takes a list with an absent value as it is. -/
theorem admits_list_iff_forall_iff {elem : Ty} {id : Nat} {items : List Value} :
    ((list elem).admits (.list id items) = true ↔ ∀ v ∈ items, elem.admits v = true) ↔
      ¬ (elem = .any ∧ .unit ∈ items) := by
  rw [admits_list_iff]
  constructor
  · rintro h ⟨rfl, hunit⟩
    exact admits_any_iff.1 (h.1 (.inl rfl) _ hunit) rfl
  · intro h
    refine ⟨?_, .inr⟩
    rintro (rfl | hall)
    · exact fun v hv => admits_any_iff.2 fun hunit => h ⟨rfl, hunit ▸ hv⟩
    · exact hall

/-! ## Every depth -/

/-- Membership with no list taken as it is: the elements of lists are checked one by one, those of
lists within lists as well. -/
def admitsEach : Ty → Value → Bool
  | list elem, .list _ items => items.all elem.admitsEach
  | ty, v => ty.admits v

/-- Whether the absence of a value is an element where a list type erases the elements, of the list
itself or of lists within it. -/
def hidesUnit : Ty → Value → Bool
  | list elem, .list _ items => items.any fun v => elem = any ∧ v.kind = .unit || elem.hidesUnit v
  | _, _ => false

theorem hidesUnit_list_eq_false_iff {elem : Ty} {id : Nat} {items : List Value} :
    (list elem).hidesUnit (.list id items) = false ↔
      ¬ (elem = any ∧ .unit ∈ items) ∧ ∀ v ∈ items, elem.hidesUnit v = false := by
  simp only [hidesUnit, List.any_eq_false, Bool.or_eq_true, decide_eq_true_eq, not_or,
    Value.kind_eq_unit_iff, Bool.not_eq_true]
  grind

/-- To check all elements at every depth refuses no more than the lists that hide the absence of a
value. -/
theorem admitsEach_iff (ty : Ty) (v : Value) :
    ty.admitsEach v = true ↔ ty.admits v = true ∧ ty.hidesUnit v = false := by
  induction ty generalizing v with
  | list elem ih =>
    cases v with
    | list id items =>
      rw [admitsEach, hidesUnit_list_eq_false_iff, List.all_eq_true]
      simp only [ih]
      by_cases hunit : elem = any ∧ .unit ∈ items
      · refine ⟨fun hall => ?_, fun h => absurd hunit h.2.1⟩
        obtain ⟨rfl, hunit⟩ := hunit
        exact absurd rfl (admits_any_iff.1 (hall _ hunit).1)
      · rw [admits_list_iff_forall_iff.2 hunit, and_iff_right hunit, forall₂_and]
    | _ => simp [admitsEach, hidesUnit]
  | _ => simp [admitsEach, hidesUnit]

end Ty

end Splice
