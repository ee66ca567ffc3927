/-
# Taking options

An option is forgotten when it is taken, which leaves every other one as it was
(`value?_unset`). So options can be taken one after the other, each as if it were the first.
-/
import Raster.Options
import Raster.Proofs.Result

namespace Raster

namespace Options

/-- Forgetting an option leaves those with another key. -/
theorem value?_unset {options : Options} {key other : String}
    (hkey : normalKey other ≠ normalKey key) :
    (options.unset key).value? other = options.value? other := by
  rw [value?, unset, Fields.get?_erase, if_neg hkey]
  rfl

/-- There is nothing to forget of an option that is not set. -/
theorem unset_eq_self {options : Options} {key : String} (h : options.value? key = none) :
    options.unset key = options := by
  refine Fields.ext_get? fun name => ?_
  rw [unset, Fields.get?_erase]
  split
  · rename_i hname
    rw [hname]
    exact h.symm
  · rfl

/-- **A number is taken** that is there, or found missing. -/
theorem takeParsed_number_eq_ok {α : Type} {options rest : Options} {key : String}
    {read : String → Except NumberFault α} {v : Option α} :
    options.takeParsed key (number read) = .ok (v, rest) ↔
      (options.value? key = none ∧ v = none ∨
        ∃ text n, options.value? key = some text ∧ read text = .ok n ∧ v = some n) ∧
      rest = options.unset key := by
  rw [takeParsed, map_eq_ok, getParsed]
  cases htext : options.value? key with
  | none => simp [eq_comm]
  | some text =>
    cases hread : read text with
    | ok n =>
      have hnumber : number read text = .ok n := mapError_eq_ok.2 hread
      simp [hnumber, hread, eq_comm]
    | error fault =>
      have hnumber : number read text = .error fault.message := by rw [number, hread]; rfl
      simp [hnumber, hread]

end Options

end Raster
