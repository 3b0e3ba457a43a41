import Ayaka.Executor.Failure
import Ayaka.Utils.MathUtils

/-!
# Sliding-window retention

A layer with a sliding window keeps the pages in which its last tokens lie.  Pages are
provided for by a closed form, which has to be the largest number of pages that any
length of the context needs: less, and a live page is used again.

Lengths and pages are integers, as in the source.  Division is floored, and the page
size is positive wherever one divides by it.
-/

namespace Ayaka
namespace Retention

open Executor (Failure check_bind_eq_ok_iff reject reject_eq_ok_iff)
open MathUtils (divCeil divCeil_eq)

def validateLayerId (layerId : Int) : Except Failure Unit :=
  reject (layerId < 0) (.valueError "layer_id must be non-negative")

def validateSequenceLength (sequenceLength : Int) : Except Failure Unit :=
  reject (sequenceLength < 0) (.valueError "sequence_length must be non-negative")

def validatePageSize (pageSize : Int) : Except Failure Unit :=
  reject (pageSize ≤ 0) (.valueError "page_size must be positive")

/-- A `range` of step one. -/
structure Range where
  start : Int
  stop : Int

def Range.len (r : Range) : Int :=
  max 0 (r.stop - r.start)

structure SlidingWindowRetention where
  windowSize : Int
  positive : 0 < windowSize

namespace SlidingWindowRetention

variable (policy : SlidingWindowRetention) (layerId : Int)

def requiredTokenRange (sequenceLength : Int) : Except Failure Range := do
  validateLayerId layerId
  validateSequenceLength sequenceLength
  return ⟨max 0 (sequenceLength - policy.windowSize), sequenceLength⟩

def retainedPageRange (sequenceLength pageSize : Int) : Except Failure Range := do
  validatePageSize pageSize
  let tokens <- policy.requiredTokenRange layerId sequenceLength
  reject (tokens.start < 0 ∨ sequenceLength < tokens.stop)
    (.valueError "retention range must stay within committed tokens")
  if tokens.stop ≤ tokens.start then
    return ⟨0, 0⟩
  return ⟨tokens.start / pageSize, divCeil tokens.stop pageSize⟩

def maxRetainedPages (maxSequenceTokens pageSize : Int) : Except Failure Int := do
  validateLayerId layerId
  validateSequenceLength maxSequenceTokens
  validatePageSize pageSize
  if maxSequenceTokens = 0 then
    return 0
  let retained := min policy.windowSize maxSequenceTokens
  let worstAlignment := (retained + 2 * pageSize - 2) / pageSize
  let totalPages := divCeil maxSequenceTokens pageSize
  return min worstAlignment totalPages

end SlidingWindowRetention

/-! ## Pages of an interval -/

section Pages

variable {a b size window length limit : Int} (hsize : 1 ≤ size)

include hsize

/-- The pages between `b` and `a` are those of the distance, one more at each end. -/
theorem ediv_le_add (a b : Int) : a / size ≤ b / size + (a - b + size - 1) / size := by
  have hhigh := Int.emod_lt_of_pos b hsize
  have hsplit := Int.mul_ediv_add_emod b size
  have hmono : (a - size * (b / size)) / size ≤ (a - b + size - 1) / size :=
    Int.ediv_le_ediv hsize (by omega)
  rw [Int.sub_mul_ediv_left _ _ (Int.ne_of_gt hsize)] at hmono
  omega

theorem pages_le (hle : length ≤ limit) :
    (length + size - 1) / size - max 0 (length - window) / size
      ≤ min ((min window limit + 2 * size - 2) / size) ((limit + size - 1) / size) := by
  have hstart : 0 ≤ max 0 (length - window) / size := Int.ediv_nonneg (by omega) (by omega)
  have htotal := Int.ediv_le_ediv hsize (show length + size - 1 ≤ limit + size - 1 by omega)
  have hspan := ediv_le_add hsize (length + size - 1) (max 0 (length - window))
  have hworst := Int.ediv_le_ediv hsize (show length + size - 1 - max 0 (length - window) + size - 1
    ≤ min window limit + 2 * size - 2 by omega)
  omega

/-- The bound is attained by the window that starts on the last token of the first page. -/
theorem pages_attained : (min limit (window + size - 1) + size - 1) / size
      - max 0 (min limit (window + size - 1) - window) / size
    = min ((min window limit + 2 * size - 2) / size) ((limit + size - 1) / size) := by
  rw [Int.ediv_eq_zero_of_lt (a := max 0 _) (by omega) (by omega)]
  by_cases hshort : limit ≤ window + size - 1
  · have hworst := Int.ediv_le_ediv hsize
      (show limit + size - 1 ≤ min window limit + 2 * size - 2 by omega)
    rw [min_eq_left hshort]
    omega
  · have htotal := Int.ediv_le_ediv hsize (show window + 2 * size - 2 ≤ limit + size - 1 by omega)
    rw [min_eq_right (by omega), min_eq_left (a := window) (by omega),
      show window + size - 1 + size - 1 = window + 2 * size - 2 by omega]
    omega

end Pages

namespace SlidingWindowRetention

variable (policy : SlidingWindowRetention) {layerId length maxTokens pageSize : Int}

/-- A positive length retains at least the page of its last token. -/
theorem retainedPageRange_eq (hlayer : 0 ≤ layerId) (hpage : 1 ≤ pageSize) (hlength : 1 ≤ length) :
    exists r, policy.retainedPageRange layerId length pageSize = .ok r
      ∧ r.len = (length + pageSize - 1) / pageSize
        - max 0 (length - policy.windowSize) / pageSize := by
  have hpositive := policy.positive
  have htokens : policy.requiredTokenRange layerId length =
      .ok ⟨max 0 (length - policy.windowSize), length⟩ := by
    unfold requiredTokenRange validateLayerId validateSequenceLength
    simp only [check_bind_eq_ok_iff, reject_eq_ok_iff]
    exact ⟨by omega, by omega, rfl⟩
  refine ⟨⟨max 0 (length - policy.windowSize) / pageSize, divCeil length pageSize⟩, ?_, ?_⟩
  · unfold retainedPageRange validatePageSize
    rw [check_bind_eq_ok_iff, htokens]
    refine ⟨reject_eq_ok_iff.mpr (by omega), check_bind_eq_ok_iff.mpr ⟨?_, ?_⟩⟩
    · exact reject_eq_ok_iff.mpr (by dsimp only; omega)
    · rw [if_neg (by dsimp only; omega)]
      rfl
  · rw [divCeil_eq hpage]
    refine max_eq_right (Int.sub_nonneg.mpr ?_)
    exact Int.ediv_le_ediv hpage (by omega)

/-- The closed form is the largest number of pages that a length up to the limit retains. -/
theorem maxRetainedPages_exact (layerId maxTokens pageSize : Int) (hlayer : 0 ≤ layerId)
    (hmax : 1 ≤ maxTokens) (hpage : 1 ≤ pageSize) :
    exists pages, policy.maxRetainedPages layerId maxTokens pageSize = Except.ok pages
      ∧ (forall length, 1 ≤ length -> length ≤ maxTokens -> exists r,
        policy.retainedPageRange layerId length pageSize = Except.ok r ∧ r.len ≤ pages)
      ∧ exists length r, 1 ≤ length ∧ length ≤ maxTokens
        ∧ policy.retainedPageRange layerId length pageSize = Except.ok r ∧ r.len = pages := by
  have hpositive := policy.positive
  refine ⟨min ((min policy.windowSize maxTokens + 2 * pageSize - 2) / pageSize)
    ((maxTokens + pageSize - 1) / pageSize), ?_, fun length hlength hle => ?_, ?_⟩
  · unfold maxRetainedPages validateLayerId validateSequenceLength validatePageSize
    simp only [check_bind_eq_ok_iff, reject_eq_ok_iff]
    refine ⟨by omega, by omega, by omega, ?_⟩
    rw [if_neg (by omega), divCeil_eq hpage]
    rfl
  · rcases policy.retainedPageRange_eq hlayer hpage hlength with ⟨r, hr, hlen⟩
    exact ⟨r, hr, hlen ▸ pages_le hpage hle⟩
  · have hlength : 1 ≤ min maxTokens (policy.windowSize + pageSize - 1) := by omega
    rcases policy.retainedPageRange_eq hlayer hpage hlength with ⟨r, hr, hlen⟩
    exact ⟨_, r, hlength, min_le_left _ _, hr, hlen.trans (pages_attained hpage)⟩

/-- A window of four tokens on pages of three, in a context of ten. -/
theorem maxRetainedPages_exact_four : exists pages,
    maxRetainedPages ⟨4, by decide⟩ 0 10 3 = Except.ok pages
      ∧ exists length r, 1 ≤ length ∧ length ≤ 10
        ∧ retainedPageRange ⟨4, by decide⟩ 0 length 3 = Except.ok r ∧ r.len = pages := by
  rcases maxRetainedPages_exact ⟨4, by decide⟩ 0 10 3 (by decide) (by decide) (by decide) with
    ⟨pages, hpages, _, hattained⟩
  exact ⟨pages, hpages, hattained⟩

end SlidingWindowRetention

end Retention
end Ayaka
