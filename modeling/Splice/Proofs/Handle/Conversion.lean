import Splice.Proofs.Handle.Typing

/-!
# Converted results

A conversion goes by the two static types: it keeps the value, drops it, converts a number or checks
at run time that the value is of the target type. The main statement says which pairs of types are
safe, so that no value comes through that the target type does not admit: all of them but one sort.
From a list of erased elements to a list of others the value is kept without a look at its elements.
-/

namespace Splice

namespace Ty

/-- The erased type admits whatever any other type does that has values. -/
theorem admits_any {ty : Ty} {v : Value} (hty : ty ≠ .void) (hv : ty.admits v = true) :
    any.admits v = true := by
  cases v with
  | unit => cases ty <;> first | exact absurd rfl hty | exact nomatch hv
  | _ => rfl

/-- The elements of an array make no difference to what the type admits. -/
theorem admits_array {elem elem' : Ty} {v : Value} (hv : (array elem).admits v = true) :
    (array elem').admits v = true := by
  cases v with
  | null => rfl
  | array a => rfl
  | _ => exact nomatch hv

/-- The elements of an iterator make no difference to what the type admits. -/
theorem admits_iterator {elem elem' : Ty} {v : Value} (hv : (iterator elem).admits v = true) :
    (iterator elem').admits v = true := by
  cases v with
  | null => rfl
  | iterator addr => rfl
  | _ => exact nomatch hv

/-- There are three numeric types. -/
theorem isNumeric_iff {ty : Ty} : ty.isNumeric = true ↔ ty = .int ∨ ty = .long ∨ ty = .double := by
  cases ty <;> simp [isNumeric]

/-- The values of type `int` are the integers of 32 bits. -/
theorem admits_int_iff {v : Value} : int.admits v = true ↔ ∃ i, v = .int i := by
  cases v <;> simp [admits, isReference, isPrimitive]

/-- The values of type `long` are the integers of 64 bits. -/
theorem admits_long_iff {v : Value} : long.admits v = true ↔ ∃ l, v = .long l := by
  cases v <;> simp [admits, isReference, isPrimitive]

/-- The values of type `double` are the floating-point numbers. -/
theorem admits_double_iff {v : Value} : double.admits v = true ↔ ∃ d, v = .double d := by
  cases v <;> simp [admits, isReference, isPrimitive]

/-- Every list is a list of erased elements. -/
theorem admits_list_any {elem : Ty} {v : Value} (hv : (list elem).admits v = true) :
    (list any).admits v = true := by
  cases v with
  | null => rfl
  | list id items => simp [admits]
  | _ => exact absurd hv Bool.false_ne_true

/-- No type but the erased one admits all that is in lists. -/
theorem exists_not_admits {elem : Ty} (helem : elem ≠ .any) :
    ∃ id items, (list elem).admits (.list id items) = false := by
  by_cases hvoid : elem = .void
  · subst hvoid
    -- the value of no value is in no list but one of erased elements
    exact ⟨0, [.null], rfl⟩
  · have hunit : elem.admits .unit = false := by
      cases elem <;> first | rfl | exact absurd rfl hvoid
    exact ⟨0, [.unit], by simp [admits, helem, hunit]⟩

end Ty

namespace Conversion

/-- The pairs of types between which there is a conversion, with the conversion. -/
inductive Between (source target : Ty) : Conversion → Prop
  | same (h : source = target) : Between source target identity
  | discarded (h : target = .void) : Between source target discard
  | number (hsource : source.isNumeric = true) (htarget : target.isNumeric = true) :
      Between source target (numeric target)
  | erased (hsource : source ≠ .void) (htarget : target = .any) : Between source target identity
  | checked : Between source target (downcast target)
  | container (h : erasedPair source target = true) : Between source target identity

/-- A conversion is found for one of six reasons. -/
theorem between_of_eq_some {source target : Ty} {conversion : Conversion}
    (h : between? source target = some conversion) : Between source target conversion := by
  -- the cases of the search in order, of which two end without a conversion
  unfold between? at h
  split at h
  case isTrue hsame =>
    obtain rfl := Option.some.inj h
    exact .same hsame
  split at h
  case isTrue hvoid =>
    obtain rfl := Option.some.inj h
    exact .discarded hvoid
  split at h
  case isTrue => exact nomatch h
  next hsource =>
  split at h
  case isTrue hnumeric =>
    obtain rfl := Option.some.inj h
    rw [Bool.and_eq_true] at hnumeric
    exact .number hnumeric.1 hnumeric.2
  split at h
  case isTrue hany =>
    obtain rfl := Option.some.inj h
    exact .erased hsource hany
  split at h
  case isTrue =>
    obtain rfl := Option.some.inj h
    exact .checked
  split at h
  case isTrue hpair =>
    obtain rfl := Option.some.inj h
    exact .container hpair
  case isFalse => exact nomatch h

/-- Numbers convert to numbers. -/
theorem exists_convertNumber {source target : Ty} {v : Value} (hsource : source.isNumeric = true)
    (htarget : target.isNumeric = true) (hv : source.admits v = true) :
    ∃ v', convertNumber v target = .ok v' ∧ target.admits v' = true := by
  rw [Ty.isNumeric_iff] at hsource htarget
  rcases hsource with rfl | rfl | rfl
  · obtain ⟨i, rfl⟩ := Ty.admits_int_iff.1 hv
    rcases htarget with rfl | rfl | rfl <;> exact ⟨_, rfl, rfl⟩
  · obtain ⟨l, rfl⟩ := Ty.admits_long_iff.1 hv
    rcases htarget with rfl | rfl | rfl <;> exact ⟨_, rfl, rfl⟩
  · obtain ⟨d, rfl⟩ := Ty.admits_double_iff.1 hv
    rcases htarget with rfl | rfl | rfl <;> exact ⟨_, rfl, rfl⟩

/-- A list with erased elements is taken for a list of others. -/
def Unchecked (source target : Ty) : Prop :=
  source = .list .any ∧ ∃ elem, elem ≠ .any ∧ target = .list elem

/-- Containers of which one is erased admit the same, unless elements of lists would have to be
looked at. -/
theorem admits_of_erasedPair {source target : Ty} {v : Value}
    (hpair : erasedPair source target = true) (hsafe : ¬ Unchecked source target)
    (hv : source.admits v = true) : target.admits v = true := by
  unfold erasedPair at hpair
  split at hpair
  · exact Ty.admits_array hv
  · next source target =>
    by_cases htarget : target = .any
    · subst htarget
      exact Ty.admits_list_any hv
    · have hsource : source = .any := by simpa [htarget] using hpair
      subst hsource
      exact absurd ⟨rfl, target, htarget, rfl⟩ hsafe
  · exact Ty.admits_iterator hv
  · exact nomatch hpair

/-- A number that is no value of a type is converted to it, or refused. -/
theorem downcastNumber_cases {source : Ty} {v : Value} (target : Ty)
    (hsource : source.isNumeric = true) (hv : source.admits v = true) :
    let converted := if target.isNumeric = true then convertNumber v target
      else .error (.failedCast (subject v) target)
    (∃ v', converted = .ok v' ∧ target.admits v' = true) ∨
    ∃ fault, converted = .error fault ∧
      (fault.cls = Fault.classCast ∨ fault.cls = Fault.nullPointer) := by
  by_cases htarget : target.isNumeric = true
  · simp only [if_pos htarget]
    exact .inl (exists_convertNumber hsource htarget hv)
  · simp only [if_neg htarget]
    exact .inr ⟨_, rfl, .inl rfl⟩

/-- What a downcast lets through is of the type; all else is refused for one of two reasons. -/
theorem checkDowncast_cases (v : Value) (target : Ty) :
    (∃ v', checkDowncast v target = .ok v' ∧ target.admits v' = true) ∨
    ∃ fault, checkDowncast v target = .error fault ∧
      (fault.cls = Fault.classCast ∨ fault.cls = Fault.nullPointer) := by
  unfold checkDowncast
  by_cases hv : target.admits v = true
  · simp only [if_pos hv]
    exact .inl ⟨v, rfl, hv⟩
  · simp only [if_neg hv]
    cases v with
    | null => exact .inr ⟨_, rfl, .inr rfl⟩
    | int i => exact downcastNumber_cases target (rfl : Ty.int.isNumeric = true) rfl
    -- numbers of the three types are converted before they are refused
    | long l => exact downcastNumber_cases target (rfl : Ty.long.isNumeric = true) rfl
    | double d => exact downcastNumber_cases target (rfl : Ty.double.isNumeric = true) rfl
    | _ => exact .inr ⟨_, rfl, .inl rfl⟩

/-- A value of the source type comes through as one of the target type, or is refused. -/
theorem apply_cases {source target : Ty} {conversion : Conversion} {v : Value}
    (hconversion : between? source target = some conversion) (hsafe : ¬ Unchecked source target)
    (hv : source.admits v = true) :
    (∃ v', conversion.apply v = .ok v' ∧ target.admits v' = true) ∨
    ∃ fault, conversion.apply v = .error fault ∧
      (fault.cls = Fault.classCast ∨ fault.cls = Fault.nullPointer) := by
  cases between_of_eq_some hconversion with
  | same h =>
    subst h
    exact .inl ⟨v, rfl, hv⟩
  | discarded h =>
    subst h
    exact .inl ⟨.unit, rfl, rfl⟩
  | number hsource htarget => exact .inl (exists_convertNumber hsource htarget hv)
  | erased hsource htarget =>
    subst htarget
    exact .inl ⟨v, rfl, Ty.admits_any hsource hv⟩
  | checked => exact checkDowncast_cases v target
  | container h => exact .inl ⟨v, rfl, admits_of_erasedPair h hsafe hv⟩

end Conversion

namespace Handle

/-- On arguments that fit, a handle returns only what its result type admits. -/
def RespectsType (h : Handle) : Prop :=
  ∀ turns args w v w', Fits h.params args → h.call turns args w = .ok v w' → h.ret.admits v = true

/-- How a call with a converted result may end, by the end of the call without: the same exception,
an exception of the conversion's own, or a value of the type. -/
inductive Converts (ty : Ty) : Outcome Value → Outcome Value → Prop
  | propagates : Converts ty (.thrown e w) (.thrown e w)
  | refuses (hcls : e.cls = Fault.classCast ∨ e.cls = Fault.nullPointer) :
      Converts ty (.ok v w) (.thrown e { w with nextId := w.nextId + 1 })
  | returns (hv : ty.admits v' = true) : Converts ty (.ok v w) (.ok v' w)
  | unfinished : Converts ty .unfinished .unfinished

/-- A handle is converted wherever there is a conversion of its result type. -/
theorem exists_convert {h : Handle} {ty : Ty} {conversion : Conversion}
    (hbetween : Conversion.between? h.ret ty = some conversion) : ∃ h', h.convert ty = .ok h' := by
  unfold convert
  rw [hbetween]
  exact ⟨_, rfl⟩

/-- A call with a converted result ends well where the conversion does. -/
theorem converts_of_apply {ty : Ty} {conversion : Conversion} {x : Exec Value} {w : World}
    (happly : ∀ v w', x w = .ok v w' →
      (∃ v', conversion.apply v = .ok v' ∧ ty.admits v' = true) ∨
      ∃ fault, conversion.apply v = .error fault ∧
        (fault.cls = Fault.classCast ∨ fault.cls = Fault.nullPointer)) :
    Converts ty (x w) ((do conversion.apply (← x) : Exec Value) w) := by
  rw [Exec.bind_apply]
  cases hx : x w with
  | ok v w' =>
    rcases happly v w' hx with ⟨v', hv', hadmits⟩ | ⟨fault, hfault, hcls⟩
    · change Converts ty (.ok v w') (Exec.ofExcept (conversion.apply v) w')
      rw [hv']
      exact .returns hadmits
    · change Converts ty (.ok v w') (Exec.ofExcept (conversion.apply v) w')
      rw [hfault]
      exact .refuses hcls
  | thrown e w' => exact .propagates
  | unfinished => exact .unfinished

/-- No conversion between two types lets a value through that the target type does not admit, but
for lists whose elements are erased in the source alone. -/
theorem convert_keeps_types (source target : Ty) :
    (∀ h h' : Handle, h.ret = source → h.RespectsType → h.convert target = .ok h' →
      ∀ turns args w, Fits h'.params args →
        Converts target (h.call turns args w) (h'.call turns args w)) ↔
      ¬ (source = .list .any ∧ ∃ elem, elem ≠ .any ∧ target = .list elem) := by
  constructor
  · rintro hsafe ⟨rfl, elem, helem, rfl⟩
    -- a function that returns a list with an element of another type
    obtain ⟨id, items, hitems⟩ := Ty.exists_not_admits helem
    let h : Handle := .prim ⟨[], .list .any, nofun⟩ fun _ => return .list id items
    have hrespects : h.RespectsType := by
      intro turns args w v w' _ hrun
      obtain ⟨rfl, -⟩ := Outcome.ok.inj hrun
      simp [h, ret, sig, Ty.admits]
    have hbetween : Conversion.between? h.ret (.list elem) = some .identity := by
      simp [h, ret, sig, Conversion.between?, Conversion.erasedPair, helem.symm, Ty.isNumeric]
    obtain ⟨h', hconvert⟩ := exists_convert hbetween
    obtain ⟨conversion, hbetween', hparams, -, hcall⟩ := convert_eq_ok hconvert
    obtain rfl := Option.some.inj (hbetween.symm.trans hbetween')
    have hfits : Fits h'.params [] := by
      rw [hparams]
      exact .nil
    have hends := hsafe h h' rfl hrespects hconvert 0 [] {} hfits
    rw [hcall] at hends
    have hkept : Converts (.list elem) (.ok (.list id items) {}) (.ok (.list id items) {}) := hends
    cases hkept with
    | returns hv => exact absurd hv (by simp [hitems])
  · rintro hsafe h h' rfl hrespects hconvert turns args w hfits
    obtain ⟨conversion, hbetween, hparams, -, hcall⟩ := convert_eq_ok hconvert
    rw [hcall]
    refine converts_of_apply fun v w' hrun => Conversion.apply_cases hbetween hsafe ?_
    exact hrespects turns args w v w' (hparams ▸ hfits) hrun

/-- A list of integers becomes a list of texts by way of a list of erased elements, and the call
returns the integers. -/
theorem converted_list_keeps_integers :
    let h : Handle := .prim ⟨[], .list .int, nofun⟩ fun _ => return .list 0 [.int 1]
    ∃ erased texts, h.RespectsType ∧ h.convert (.list .any) = .ok erased ∧ erased.RespectsType ∧
      erased.convert (.list .str) = .ok texts ∧ texts.ret = .list .str ∧
      texts.call 0 [] {} = .ok (.list 0 [.int 1]) {} ∧
      ¬ (Ty.list .str).admits (.list 0 [.int 1]) = true := by
  intro h
  have hreturns : ∀ h' : Handle, (∀ turns args w, h'.call turns args w = .ok (.list 0 [.int 1]) w) →
      h'.ret.admits (.list 0 [.int 1]) = true → h'.RespectsType := by
    intro h' hcall hadmits turns args w v w' _ hrun
    obtain ⟨rfl, -⟩ := Outcome.ok.inj ((hcall turns args w).symm.trans hrun)
    exact hadmits
  exact ⟨_, _, hreturns h (fun _ _ _ => rfl) (by decide), rfl,
    hreturns _ (fun _ _ _ => rfl) (by decide), rfl, rfl, rfl, by decide⟩

end Handle

end Splice
