import Splice.Handle.Arguments
import Splice.Handle.Result

/-!
# What composed handles do

For each way to compose a handle from others: when the composition is accepted, and what the
accepted handle takes, returns and does. The statements are about `call`, so about arguments as
many as the handle has parameters.
-/

namespace Splice.Handle

/-- No parameter is misplaced when the reordering names an argument of its type for each. -/
theorem misplaced?_eq_none_iff {h : Handle} {params : List Ty} {reorder : List Nat}
    (hlen : reorder.length = h.arity) :
    h.misplaced? params reorder = none ↔ reorder.map (params[·]?) = h.params.map some := by
  rw [misplaced?, List.findSome?_eq_none_iff]
  constructor
  · intro hnone
    apply List.ext_getElem
    · simp [hlen, arity]
    · intro i h1 h2
      rw [List.length_map] at h1 h2
      have hi := hnone ((h.params[i], reorder[i]), i) <| by
        rw [List.mem_zipIdx_iff_getElem?]
        exact List.getElem?_zip_eq_some.2
          ⟨List.getElem?_eq_getElem h2, List.getElem?_eq_getElem h1⟩
      simp only [List.getElem?_toArray] at hi
      split at hi
      · split at hi
        · simp_all
        · exact nomatch hi
      · exact nomatch hi
  · rintro hall ⟨⟨expected, position⟩, i⟩ hmem
    rw [List.mem_zipIdx_iff_getElem?, List.getElem?_zip_eq_some] at hmem
    have hi := congrArg (·[i]?) hall
    simp only [List.getElem?_map, hmem, Option.map_some, Option.some.injEq] at hi
    simp [hi]

/-- A reordering is accepted exactly when it names an argument of its type for each parameter. -/
theorem exists_permute_iff {h : Handle} {params : List Ty} {reorder : List Nat}
    (hparams : Ty.void ∉ params) :
    (∃ h', h.permute params reorder = .ok h') ↔
      reorder.map (params[·]?) = h.params.map some := by
  constructor
  · rintro ⟨h', hp⟩
    rw [permute, require_bind_eq_ok_iff, bind_eq_ok_iff] at hp
    obtain ⟨hlen, sig, -, hp⟩ := hp
    rw [← misplaced?_eq_none_iff hlen]
    cases hm : h.misplaced? params reorder with
    | some cause => rw [hm] at hp; exact nomatch hp
    | none => rfl
  · intro hall
    have hlen : reorder.length = h.arity := by
      simpa [arity] using congrArg List.length hall
    have hm := (misplaced?_eq_none_iff hlen).2 hall
    exact ⟨_, require_bind_eq_ok_iff.2 ⟨hlen, bind_eq_ok_iff.2
      ⟨_, Signature.ofTypes_of_notMem hparams h.ret, by rw [hm]; exact rfl⟩⟩⟩

/-- An accepted reordering takes the new parameters and passes on the arguments that it names. -/
theorem permute_eq_ok {h h' : Handle} {params : List Ty} {reorder : List Nat}
    (hp : h.permute params reorder = .ok h') :
    h'.params = params ∧ h'.ret = h.ret ∧ ∀ turns args, args.length = params.length →
      h'.call turns args = h.call turns (reorder.map (argument args)) := by
  rw [permute, require_bind_eq_ok_iff, bind_eq_ok_iff] at hp
  obtain ⟨hlen, sig, hsig, hp⟩ := hp
  obtain ⟨hparams, hret⟩ := Signature.ofTypes_eq_ok_iff.1 hsig
  cases hm : h.misplaced? params reorder with
  | some cause => rw [hm] at hp; exact nomatch hp
  | none =>
    rw [hm] at hp
    obtain rfl := Except.ok.inj hp
    by_cases hrange : reorder = List.range params.length
    · -- nothing moves, so the handle itself is the result
      have hall := (misplaced?_eq_none_iff hlen).1 hm
      rw [if_pos hrange]
      refine ⟨?_, rfl, fun turns args hargs => ?_⟩
      · rw [hrange] at hall
        apply List.map_inj_right (f := some) (fun _ _ => Option.some.inj) |>.1
        rw [← hall]
        apply List.ext_getElem <;> simp
      · congr 1
        rw [hrange, ← hargs]
        apply List.ext_getElem
        · simp
        · intro i h1 h2
          simp [argument, h1]
    · rw [if_neg hrange]
      refine ⟨hparams, hret, fun turns args _ => ?_⟩
      simp only [call, List.getElem?_toArray]
      rfl

/-- A filter with a result is accepted exactly where a parameter of the type of the result is. -/
theorem exists_collect_iff {h filter : Handle} {pos : Nat} (hret : filter.ret ≠ .void) :
    (∃ h', h.collect pos filter = .ok h') ↔ h.params[pos]? = some filter.ret := by
  rw [collect, if_neg hret]
  split
  case isTrue hpos => exact ⟨fun _ => hpos, fun _ => ⟨_, rfl⟩⟩
  case isFalse hpos => exact ⟨fun ⟨_, hc⟩ => (nomatch hc), fun hpos' => absurd hpos' hpos⟩

/-- A filter takes its arguments from `pos` on. It runs first, and what it returns, if anything,
stands for them. -/
theorem collect_eq_ok {h filter h' : Handle} {pos : Nat} (hc : h.collect pos filter = .ok h') :
    h'.ret = h.ret ∧
      h'.params = h.params.take pos ++ filter.params ++
        h.params.drop (if filter.ret = .void then pos else pos + 1) ∧
      ∀ turns args, h'.call turns args = (do
        let produced ← filter.call turns ((args.drop pos).take filter.arity)
        let rest := args.drop (pos + filter.arity)
        h.call turns
          (args.take pos ++ if filter.ret = .void then rest else produced :: rest)) := by
  rw [collect] at hc
  by_cases hvoid : filter.ret = .void
  · rw [if_pos hvoid] at hc
    split at hc
    case isFalse => exact nomatch hc
    case isTrue =>
      obtain rfl := Except.ok.inj hc
      exact ⟨rfl, by rw [if_pos hvoid]; rfl, fun _ _ => by rw [call]⟩
  · rw [if_neg hvoid] at hc
    split at hc
    case isFalse => exact nomatch hc
    case isTrue =>
      obtain rfl := Except.ok.inj hc
      exact ⟨rfl, by rw [if_neg hvoid]; rfl, fun _ _ => by rw [call]⟩

/-- Types that are no void can be inserted wherever the handle has a parameter or ends. -/
theorem exists_dropArgs_iff {h : Handle} {pos : Nat} {types : List Ty} :
    (∃ h', h.dropArgs pos types = .ok h') ↔ pos ≤ h.arity ∧ Ty.void ∉ types := by
  constructor
  · rintro ⟨h', hd⟩
    rw [dropArgs, require_bind_eq_ok_iff, bind_eq_ok_iff] at hd
    obtain ⟨hpos, inserted, hsig, -⟩ := hd
    exact ⟨hpos, (Signature.ofTypes_eq_ok_iff.1 hsig).1 ▸ inserted.noVoid⟩
  · rintro ⟨hpos, hvoid⟩
    exact ⟨_, require_bind_eq_ok_iff.2 ⟨hpos, bind_eq_ok_iff.2
      ⟨_, Signature.ofTypes_of_notMem hvoid .void, rfl⟩⟩⟩

/-- The arguments inserted from `pos` on have no influence. -/
theorem dropArgs_eq_ok {h h' : Handle} {pos : Nat} {types : List Ty}
    (hd : h.dropArgs pos types = .ok h') :
    h'.ret = h.ret ∧ h'.params = h.params.take pos ++ types ++ h.params.drop pos ∧
      ∀ turns args,
        h'.call turns args = h.call turns (args.take pos ++ args.drop (pos + types.length)) := by
  rw [dropArgs, require_bind_eq_ok_iff, bind_eq_ok_iff] at hd
  obtain ⟨-, inserted, hsig, hd⟩ := hd
  obtain rfl := Except.ok.inj hd
  cases types with
  | nil =>
    refine ⟨rfl, ?_, fun turns args => ?_⟩
    · simp
    · simp
  | cons ty types =>
    refine ⟨rfl, ?_, fun turns args => ?_⟩
    · have hparams := (Signature.ofTypes_eq_ok_iff.1 hsig).1
      change h.params.take pos ++ inserted.params ++ h.params.drop pos = _
      rw [hparams]
    · rw [if_neg (by simp), call]

/-- A filter of the result is accepted exactly when it takes the result and nothing else. -/
theorem filterReturn_eq_ok_iff {h filter h' : Handle} :
    h.filterReturn filter = .ok h' ↔
      filter.params = resultParams h.ret ∧
        h' = filtered (h.sig.returning filter.ret) filter h := by
  rw [filterReturn]
  split
  case isTrue hparams => rw [Except.ok.injEq, and_iff_right hparams, eq_comm]
  case isFalse hparams => exact ⟨fun hf => (nomatch hf), fun hf => absurd hf.1 hparams⟩

/-- A conversion of the result keeps the parameters and converts what the handle returns. -/
theorem convert_eq_ok {h h' : Handle} {ty : Ty} (hc : h.convert ty = .ok h') :
    ∃ conversion, Conversion.between? h.ret ty = some conversion ∧
      h'.params = h.params ∧ h'.ret = ty ∧
      ∀ turns args, h'.call turns args = (do conversion.apply (← h.call turns args)) := by
  rw [convert] at hc
  split at hc
  case h_1 => exact nomatch hc
  case h_2 conversion hbetween =>
    obtain rfl := Except.ok.inj hc
    refine ⟨conversion, hbetween, ?_⟩
    by_cases hty : h.ret = ty
    · -- a type converts to itself by the identity, which leaves no trace
      subst hty
      rw [Conversion.between?_self] at hbetween
      obtain rfl := Option.some.inj hbetween
      rw [if_pos rfl]
      exact ⟨rfl, rfl, fun turns args => (bind_pure (h.call turns args)).symm⟩
    · rw [if_neg hty]
      exact ⟨rfl, rfl, fun turns args => by rw [call]⟩

end Splice.Handle
