import S3Sink.Envelopes
import Mathlib.Algebra.Order.Monoid.Defs
import Mathlib.Algebra.Order.Ring.Nat

/-!
# Uploader — the attempt number and the backoff

The arithmetic of `S3Upload::upload` (`uploader/s3_uploader.rs`) before it sleeps.  `u64` operations
are checked: `none` where the code would overflow.

* `S3Upload.attempt`, `S3Upload.backoffMs` — as the code computes them;
* `backoffAt`, `backoffMs_eq` — the exact backoff of an attempt, which no overflow cuts short.
-/

namespace S3Sink

/-! ## Checked arithmetic -/

/-- `x - y` on `u64`. -/
def u64Sub? (x y : Nat) : Option Nat :=
  if y ≤ x then some (x - y) else none

/-- `x * y` on `u64`. -/
def u64Mul? (x y : Nat) : Option Nat :=
  if x * y ≤ u64Max then some (x * y) else none

/-- `x.pow(exp)` on `u64`, with a `u32` exponent. -/
def u64Pow? (x exp : Nat) : Option Nat :=
  if x ^ exp ≤ u64Max then some (x ^ exp) else none

/-- `x as u32`. -/
def asU32 (x : Nat) : Nat :=
  x % 2 ^ 32

/-! ## The uploader -/

/-- What the backoff depends on; the client and the bucket are left out. -/
structure S3Upload where
  maxUploadsRetry : Nat

namespace S3Upload

def maxBackoffMs : Nat := 5000

/-- The number of the attempt, counted down in the envelope. -/
def attempt (self : S3Upload) (toUpload : ToUpload) : Option Nat :=
  u64Sub? self.maxUploadsRetry toUpload.retries

/-- The longest sleep before the upload; the jitter picks one between zero and it. -/
def backoffMs (self : S3Upload) (toUpload : ToUpload) : Option Nat := do
  let attempt ← self.attempt toUpload
  if 0 < attempt then
    let factor ← u64Pow? 2 (asU32 (min attempt 6))
    let backoff ← u64Mul? 100 factor
    return min backoff maxBackoffMs
  else
    -- the first attempt does not sleep
    return 0

/-! ## The exact backoff -/

/-- The backoff before an attempt, on natural numbers. -/
def backoffAt (attempt : Nat) : Nat :=
  if 0 < attempt then min (100 * 2 ^ min attempt 6) maxBackoffMs else 0

theorem backoffAt_le (attempt : Nat) : backoffAt attempt ≤ maxBackoffMs := by
  unfold backoffAt
  split
  · exact min_le_right _ _
  · exact Nat.zero_le _

theorem backoffAt_monotone : Monotone backoffAt := by
  intro attempt attempt' hle
  unfold backoffAt
  by_cases hpos : 0 < attempt
  · rw [if_pos hpos, if_pos (hpos.trans_le hle)]
    have hexp : min attempt 6 ≤ min attempt' 6 := min_le_min_right 6 hle
    have hpow : 2 ^ min attempt 6 ≤ 2 ^ min attempt' 6 := Nat.pow_le_pow_right (by decide) hexp
    exact min_le_min_right maxBackoffMs (Nat.mul_le_mul_left 100 hpow)
  · rw [if_neg hpos]
    exact Nat.zero_le _

/-- The exponent is clipped before the power is taken, so nothing overflows. -/
theorem pow_clipped_le (attempt : Nat) : 2 ^ min attempt 6 ≤ 64 :=
  Nat.pow_le_pow_right (by decide) (min_le_right attempt 6)

theorem backoffMs_eq {self : S3Upload} {toUpload : ToUpload} {attempt : Nat}
    (hattempt : self.attempt toUpload = some attempt) :
    self.backoffMs toUpload = some (backoffAt attempt) := by
  have hclipped := pow_clipped_le attempt
  have hexp : asU32 (min attempt 6) = min attempt 6 :=
    Nat.mod_eq_of_lt ((min_le_right attempt 6).trans_lt (by decide))
  have hpow : u64Pow? 2 (min attempt 6) = some (2 ^ min attempt 6) :=
    if_pos (hclipped.trans (by decide))
  have hmul : u64Mul? 100 (2 ^ min attempt 6) = some (100 * 2 ^ min attempt 6) :=
    if_pos ((Nat.mul_le_mul_left 100 hclipped).trans (by decide))
  unfold backoffMs backoffAt
  rw [hattempt]
  split
  · simp [*]
  · simp [*]

theorem attempt_eq {self : S3Upload} {toUpload : ToUpload} {attempt : Nat}
    (hretries : toUpload.retries + attempt = self.maxUploadsRetry) :
    self.attempt toUpload = some attempt := by
  rw [S3Upload.attempt, u64Sub?, if_pos (by omega)]
  exact congrArg some (by omega)

end S3Upload

end S3Sink
