import Splice.Proofs.Closure.Branching
import Splice.Proofs.Handle.Conversion

/-!
# Chains of casts

A cast goes by the static types, and a cast from the erased type by what the value is. In a chain of
casts the two alternate, so what becomes of a number depends on the way that it has come. The
invariant ties the static type to the kind of the number: they agree unless the type is erased, in
which case the number is of the kind that the last type was which is not erased. Of the integer
itself a cast to `int` keeps the low bits and every other cast all of it.
-/

namespace Splice

/-! ## Integers -/

/-- A value represents an integer, as one of the two kinds of integers. -/
inductive Value.Represents : Value → Ty → Int → Prop
  | int (n : Int32) : Represents (.int n) .int n.toInt
  | long (l : Int64) : Represents (.long l) .long l.toInt

/-- The kind and the integer tell the value. -/
theorem Value.Represents.unique {v v' : Value} {kind : Ty} {i : Int} (h : v.Represents kind i)
    (h' : v'.Represents kind i) : v = v' := by
  cases h with
  | int n =>
    generalize hi : n.toInt = i at h'
    cases h'
    rw [Int32.toInt_inj.1 hi]
  | long l =>
    generalize hi : l.toInt = i at h'
    cases h'
    rw [Int64.toInt_inj.1 hi]

/-- The low 32 bits of an integer, the highest of them for the sign. -/
def lowBits (i : Int) : Int := i.bmod 0x100000000

/-- An integer of 32 bits is its own low bits. -/
theorem lowBits_toInt (n : Int32) : lowBits n.toInt = n.toInt := n.toInt_bmod

/-- To convert an integer of 64 bits to one of 32 takes its low bits. -/
theorem toInt_toInt32 (l : Int64) : l.toInt32.toInt = lowBits l.toInt := l.toInt_toInt32

/-- Low bits are taken once only. -/
theorem lowBits_lowBits (i : Int) : lowBits (lowBits i) = lowBits i := Int.bmod_bmod

namespace Ty

/-- The kind of an integer behind a cast: erasing the type leaves it. -/
def kindAfter (kind target : Ty) : Ty := if target = any then kind else target

/-- The last type of a chain that is not erased, or the one that the chain starts from. -/
def lastKind (start : Ty) (chain : List Ty) : Ty := (chain.filter (· ≠ any)).getLastD start

/-- The kind behind a chain is the kind that the rest of the chain gives to the one behind its first
type. -/
theorem lastKind_cons (start target : Ty) (chain : List Ty) :
    lastKind start (target :: chain) = lastKind (start.kindAfter target) chain := by
  rw [lastKind, kindAfter]
  by_cases h : target = any
  · rw [List.filter_cons_of_neg (by simpa using h), if_pos h, lastKind]
  · rw [List.filter_cons_of_pos (by simpa using h), if_neg h, List.getLastD_cons, lastKind]

end Ty

/-- An integer behind a cast. -/
def integerAfter (i : Int) (target : Ty) : Int := if target = .int then lowBits i else i

/-- An integer behind a chain of casts. -/
def integerAfterAll (i : Int) (chain : List Ty) : Int := if .int ∈ chain then lowBits i else i

/-- A chain takes the low bits if its first cast does, or else if the rest of it does. -/
theorem integerAfterAll_cons (i : Int) (target : Ty) (chain : List Ty) :
    integerAfterAll i (target :: chain) = integerAfterAll (integerAfter i target) chain := by
  unfold integerAfterAll integerAfter
  -- the rest may take the low bits once more, which changes nothing
  by_cases htarget : target = .int
  · rw [if_pos htarget, if_pos (by simp [htarget]), lowBits_lowBits, ite_self]
  · rw [if_neg htarget]
    simp only [List.mem_cons, Ne.symm htarget, false_or]

/-! ## One cast -/

namespace Conversion

/-- A type that has values can be erased, and nothing is done to these. -/
theorem between?_any {ty : Ty} (hty : ty ≠ .void) : between? ty .any = some identity := by
  by_cases hany : ty = .any
  · rw [hany, between?_self]
  · simp [between?, hany, hty, Ty.isNumeric]

/-- From the erased type there is a way back to every other one, which keeps the values that the
type admits. -/
theorem exists_between?_of_any {ty : Ty} (hty : ty ≠ .void) :
    ∃ conversion, between? .any ty = some conversion ∧
      ∀ v, ty.admits v = true → conversion.apply v = .ok v := by
  by_cases hany : ty = .any
  · exact ⟨identity, by rw [hany, between?_self], fun _ _ => rfl⟩
  · refine ⟨downcast ty, ?_, fun v hv => checkDowncast_of_admits hv⟩
    simp [between?, Ne.symm hany, hany, hty, Ty.isNumeric]

/-- Among the integer types and the erased one there are all conversions. -/
theorem exists_between? {source target : Ty}
    (hsource : source = .int ∨ source = .long ∨ source = .any)
    (htarget : target = .int ∨ target = .long ∨ target = .any) :
    ∃ conversion, between? source target = some conversion := by
  rcases hsource with rfl | rfl | rfl <;> rcases htarget with rfl | rfl | rfl <;> exact ⟨_, rfl⟩

/-- A cast converts an integer, whether its static type shows the kind or is erased, unless it is a
cast to the erased type. -/
theorem apply_of_represents {source target kind : Ty} {conversion : Conversion} {v : Value}
    {i : Int} (hbetween : between? source target = some conversion) (hv : v.Represents kind i)
    (hsource : source = .any ∨ source = kind)
    (htarget : target = .int ∨ target = .long ∨ target = .any) :
    conversion.apply v = if target = .any then .ok v else convertNumber v target := by
  cases hv <;> rcases hsource with rfl | rfl <;> rcases htarget with rfl | rfl | rfl <;>
    obtain rfl := Option.some.inj hbetween <;> rfl

end Conversion

/-- A cast to an integer type makes an integer of that kind, with the low bits if they have to do,
and erasing the type keeps the value. -/
theorem Value.Represents.exists_apply {source target kind : Ty} {conversion : Conversion}
    {v : Value} {i : Int} (hv : v.Represents kind i)
    (hbetween : Conversion.between? source target = some conversion)
    (hsource : source = .any ∨ source = kind)
    (htarget : target = .int ∨ target = .long ∨ target = .any) :
    ∃ v', conversion.apply v = .ok v' ∧
      v'.Represents (kind.kindAfter target) (integerAfter i target) := by
  rw [Conversion.apply_of_represents hbetween hv hsource htarget]
  -- the low bits are lost by a cast of a long one only, and come back as the same integer
  cases hv with
  | int n =>
    rcases htarget with rfl | rfl | rfl
    · have hbits : integerAfter n.toInt .int = n.toInt := lowBits_toInt n
      rw [hbits]
      exact ⟨.int n, rfl, .int n⟩
    · exact ⟨.long n.toInt64, rfl, n.toInt_toInt64 ▸ .long n.toInt64⟩
    · exact ⟨.int n, rfl, .int n⟩
  | long l =>
    rcases htarget with rfl | rfl | rfl
    · have hbits : integerAfter l.toInt .int = l.toInt32.toInt := (toInt_toInt32 l).symm
      rw [hbits]
      exact ⟨.int l.toInt32, rfl, .int l.toInt32⟩
    · exact ⟨.long l, rfl, .long l⟩
    · exact ⟨.long l, rfl, .long l⟩

/-! ## Chains -/

namespace Closure

/-- The closure with its result cast to one type after the other. -/
def castAll (c : Closure) (chain : List Ty) : Except CompositionError Closure :=
  chain.foldlM cast c

/-- A closure reads what another one does, and makes of the value of that one what a function makes
of it. -/
structure Maps (d c : Closure) (f : Value → Except Fault Value) : Prop where
  args_eq : d.args = c.args
  eval_eq : ∀ turns env, d.eval turns env = (do f (← c.eval turns env))

namespace Maps

variable {b c d : Closure} {f g : Value → Except Fault Value}

/-- A closure maps itself by keeping the value. -/
theorem refl (c : Closure) : c.Maps c .ok := ⟨rfl, fun _ _ => (bind_pure _).symm⟩

/-- Two maps in turn are one map by both functions, the first of which may fail. -/
theorem trans (h : d.Maps c g) (h' : c.Maps b f) : d.Maps b fun v => (do g (← f v)) := by
  refine ⟨h.args_eq.trans h'.args_eq, fun turns env => ?_⟩
  rw [h.eval_eq, h'.eval_eq, bind_assoc]
  refine bind_congr fun v => ?_
  cases f v <;> rfl

/-- A map runs through where both the closure and the function do. -/
theorem eval_of_ok (h : d.Maps c f) {turns : Nat} {env : Env} {w w' : World} {v v' : Value}
    (hv : c.eval turns env w = .ok v w') (hf : f v = .ok v') : d.eval turns env w = .ok v' w' := by
  rw [h.eval_eq, Exec.bind_apply, hv]
  simp only [hf]
  rfl

/-- A map throws what the closure under it throws. -/
theorem eval_of_thrown (h : d.Maps c f) {turns : Nat} {env : Env} {w w' : World} {e : Exception}
    (hv : c.eval turns env w = .thrown e w') : d.eval turns env w = .thrown e w' := by
  rw [h.eval_eq, Exec.bind_apply, hv]

end Maps

/-- A cast that there is a conversion for maps the closure by it. -/
theorem exists_cast_maps {c : Closure} {target : Ty} {conversion : Conversion}
    (hbetween : Conversion.between? c.ty target = some conversion) :
    ∃ d, c.cast target = .ok d ∧ d.ty = target ∧ d.Maps c conversion.apply := by
  obtain ⟨d, hd, hty, hargs, heval⟩ := c.exists_cast hbetween
  exact ⟨d, hd, hty, hargs, heval⟩

/-- A chain of casts over the integer types is composed, and takes integers of the kind that the
static type says to integers of the kind that the chain leads to. -/
theorem exists_castAll {c : Closure} {chain : List Ty}
    (hty : c.ty = .int ∨ c.ty = .long ∨ c.ty = .any)
    (hchain : ∀ ty ∈ chain, ty = .int ∨ ty = .long ∨ ty = .any) :
    ∃ d f, c.castAll chain = .ok d ∧ d.ty = chain.getLastD c.ty ∧ d.Maps c f ∧
      ∀ v kind i, v.Represents kind i → c.ty = .any ∨ c.ty = kind →
        ∃ v', f v = .ok v' ∧
          v'.Represents (Ty.lastKind kind chain) (integerAfterAll i chain) := by
  -- the induction is over all closures, since the rest of the chain casts the result of the first
  -- cast
  induction chain generalizing c with
  | nil => exact ⟨c, .ok, rfl, rfl, .refl c, fun v kind i hv _ => ⟨v, rfl, hv⟩⟩
  | cons target chain ih =>
    obtain ⟨htarget, hrest⟩ := List.forall_mem_cons.1 hchain
    obtain ⟨conversion, hbetween⟩ := Conversion.exists_between? hty htarget
    obtain ⟨b, hb, rfl, hfirst⟩ := exists_cast_maps hbetween
    obtain ⟨d, f, hd, hdty, hmaps, hf⟩ := ih htarget hrest
    refine ⟨d, _, ?_, ?_, hmaps.trans hfirst, ?_⟩
    · rw [castAll, List.foldlM_cons, hb]
      exact hd
    · rw [hdty, List.getLastD_cons]
    · intro v kind i hv hkind
      obtain ⟨v₁, happly, hv₁⟩ := hv.exists_apply hbetween hkind htarget
      -- the cast closure shows the kind of the value, unless its type is erased
      have hkind₁ : b.ty = .any ∨ b.ty = kind.kindAfter b.ty := by
        rw [Ty.kindAfter]
        split
        next h => exact .inl h
        next => exact .inr rfl
      obtain ⟨v', hv', hrepresents⟩ := hf v₁ _ _ hv₁ hkind₁
      rw [Ty.lastKind_cons, integerAfterAll_cons]
      exact ⟨v', by rw [happly]; exact hv', hrepresents⟩

/-- A type that has values can be erased and cast back, and the values that it admits come back. -/
theorem exists_cast_any_back {c : Closure} (hty : c.ty ≠ .void) :
    ∃ erased back f, c.cast .any = .ok erased ∧ erased.ty = .any ∧ erased.cast c.ty = .ok back ∧
      back.ty = c.ty ∧ back.Maps c f ∧ ∀ v, c.ty.admits v = true → f v = .ok v := by
  obtain ⟨erased, herased, hany, hfirst⟩ := exists_cast_maps (Conversion.between?_any hty)
  obtain ⟨conversion, hbetween, hkeeps⟩ := Conversion.exists_between?_of_any hty
  obtain ⟨back, hback, hbackTy, hsecond⟩ := exists_cast_maps (hany ▸ hbetween)
  exact ⟨erased, back, _, herased, hany, hback, hbackTy, hsecond.trans hfirst, hkeeps⟩

/-- To erase a type and to cast back gives the very values that the type admits, and a chain of
casts over the integer types keeps the integer: all of it from `int`, and from `long` as long as the
chain does not come to `int`, where the low bits are kept. The kind of the number is that of the
last type which is not erased. -/
theorem casts_are_lossless (c : Closure) :
    (c.ty ≠ .void → ∃ erased back, c.cast .any = .ok erased ∧ erased.ty = .any ∧
      erased.cast c.ty = .ok back ∧ back.ty = c.ty ∧ back.args = c.args ∧
      ∀ turns env w w',
        (∀ v, c.eval turns env w = .ok v w' → c.ty.admits v = true →
          back.eval turns env w = .ok v w') ∧
        ∀ e, c.eval turns env w = .thrown e w' → back.eval turns env w = .thrown e w') ∧
    ∀ chain, (c.ty = .int ∨ c.ty = .long) →
      (∀ ty ∈ chain, ty = .int ∨ ty = .long ∨ ty = .any) →
      ∃ d, c.castAll chain = .ok d ∧ d.ty = chain.getLastD c.ty ∧ d.args = c.args ∧
        ∀ turns env w w',
          (∀ n, c.ty = .int → c.eval turns env w = .ok (.int n) w' → ∃ v,
            d.eval turns env w = .ok v w' ∧
              v.Represents (Ty.lastKind .int chain) n.toInt) ∧
          (∀ m, c.ty = .long → c.eval turns env w = .ok (.long m) w' → ∃ v,
            d.eval turns env w = .ok v w' ∧
              v.Represents (Ty.lastKind .long chain)
                (if .int ∈ chain then lowBits m.toInt else m.toInt)) ∧
          ∀ e, c.eval turns env w = .thrown e w' → d.eval turns env w = .thrown e w' := by
  constructor
  · intro hty
    obtain ⟨erased, back, f, herased, hany, hback, hbackTy, hmaps, hkeeps⟩ :=
      exists_cast_any_back hty
    refine ⟨erased, back, herased, hany, hback, hbackTy, hmaps.args_eq, fun turns env w w' => ?_⟩
    exact ⟨fun v hv hadmits => hmaps.eval_of_ok hv (hkeeps v hadmits),
      fun e he => hmaps.eval_of_thrown he⟩
  · intro chain hty hchain
    obtain ⟨d, f, hd, hdty, hmaps, hf⟩ := exists_castAll (hty.imp_right .inl) hchain
    refine ⟨d, hd, hdty, hmaps.args_eq, fun turns env w w' => ⟨?_, ?_, ?_⟩⟩
    · intro n hint hn
      obtain ⟨v, hv, hrepresents⟩ := hf _ _ _ (.int n) (.inr hint)
      have hinteger : integerAfterAll n.toInt chain = n.toInt := by
        rw [integerAfterAll, lowBits_toInt, ite_self]
      exact ⟨v, hmaps.eval_of_ok hn hv, hinteger ▸ hrepresents⟩
    · intro m hlong hm
      obtain ⟨v, hv, hrepresents⟩ := hf _ _ _ (.long m) (.inr hlong)
      exact ⟨v, hmaps.eval_of_ok hm hv, hrepresents⟩
    · exact fun e he => hmaps.eval_of_thrown he

/-- An integer of 34 bits comes through the erased type, and loses its high bits on the way through
`int` also where the static type does not show it; a nested list comes back as it is. -/
theorem casts_are_lossless_of_wide_integer :
    let m : Int64 := 8589934597
    let c : Closure := ⟨.prim ⟨[], .long, by decide⟩ fun _ => return .long m, [], rfl⟩
    let l : Value := .list 3 [.list 4 [.int 1], .null]
    let lists : Closure := ⟨.prim ⟨[], .list (.list .int), by decide⟩ fun _ => return l, [], rfl⟩
    ∀ env, (∃ d, c.castAll [.any, .long, .any] = .ok d ∧ d.eval 0 env {} = .ok (.long m) {}) ∧
      (∃ d, c.castAll [.any, .int, .any, .long] = .ok d ∧ d.eval 0 env {} = .ok (.long 5) {}) ∧
      ∃ erased back, lists.cast .any = .ok erased ∧ erased.cast (.list (.list .int)) = .ok back ∧
        back.eval 0 env {} = .ok l {} := by
  intro m c l lists env
  obtain ⟨-, hchains⟩ := casts_are_lossless c
  obtain ⟨hlists, -⟩ := casts_are_lossless lists
  refine ⟨?_, ?_, ?_⟩
  · obtain ⟨d, hd, -, -, hruns⟩ := hchains [.any, .long, .any] (.inr rfl) (by decide)
    -- the erased type in the middle hides the kind, but the last cast that shows one is to long
    obtain ⟨v, hv, hrepresents⟩ := (hruns 0 env {} {}).2.1 m rfl rfl
    rw [if_neg (by decide)] at hrepresents
    obtain rfl := hrepresents.unique (.long m)
    exact ⟨d, hd, hv⟩
  · obtain ⟨d, hd, -, -, hruns⟩ := hchains [.any, .int, .any, .long] (.inr rfl) (by decide)
    obtain ⟨v, hv, hrepresents⟩ := (hruns 0 env {} {}).2.1 m rfl rfl
    have hlow : lowBits m.toInt = (5 : Int64).toInt := by decide
    rw [if_pos (by decide), hlow] at hrepresents
    obtain rfl := hrepresents.unique (.long 5)
    exact ⟨d, hd, hv⟩
  · obtain ⟨erased, back, herased, -, hback, -, -, hruns⟩ := hlists nofun
    exact ⟨erased, back, herased, hback, (hruns 0 env {} {}).1 l rfl (by decide)⟩

end Closure

end Splice
