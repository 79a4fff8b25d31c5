import PureChain.Types
import Mathlib.Data.Nat.ModEq
import Mathlib.Data.UInt

/-!
# The gas-limit adjustment

`CalcGasLimit` on `uint64` words as the source computes it, and the same steps over
unbounded naturals as the spec (§4.2) lists them. For a parent with `u ≤ L` and
`D ≤ L ≤ 2^63 - 1` no word operation wraps, so the two agree bit for bit; the later
modules reason about the exact version only. Below the divisor (`L < D`) the decay wraps,
and the last section says what the function then computes.

The constants `GasLimitBoundDivisor` and `MinGasLimit` are declared in another file of
package `params`, so they are parameters.
-/

namespace PureChain

theorem lt_iff_toNat_lt {a b : UInt64} : a < b ↔ a.toNat < b.toNat := by
  simp [UInt64.lt_def, BitVec.lt_def, UInt64.toNat]

theorem le_iff_toNat_le {a b : UInt64} : a ≤ b ↔ a.toNat ≤ b.toNat := by
  simp [UInt64.le_def, BitVec.le_def, UInt64.toNat]

/-- The constants of package `params` that `CalcGasLimit` reads. Go rejects a division by
a zero constant at compile time, so the divisor is positive. -/
structure Params where
  gasLimitBoundDivisor : UInt64
  minGasLimit : UInt64
  divisor_pos : 0 < gasLimitBoundDivisor

theorem Params.divisor_toNat_pos (params : Params) : 0 < params.gasLimitBoundDivisor.toNat :=
  lt_iff_toNat_lt.mp params.divisor_pos

variable {Hash Bloom Tx : Type}

/-- `CalcGasLimit(parent, gasFloor, gasCeil)`: the parent's limit moved by `contrib - decay`,
floored at `MinGasLimit`, then honed towards `[gasFloor, gasCeil]` by at most `decay`. -/
def calcGasLimit (params : Params) (parent : Block Hash Bloom Tx) (gasFloor gasCeil : UInt64) :
    UInt64 :=
  let contrib := (parent.gasUsed + parent.gasUsed / 2) / params.gasLimitBoundDivisor
  let decay := parent.gasLimit / params.gasLimitBoundDivisor - 1
  let limit := parent.gasLimit - decay + contrib
  let limit := if limit < params.minGasLimit then params.minGasLimit else limit
  if limit < gasFloor then
    let limit := parent.gasLimit + decay
    if limit > gasFloor then gasFloor else limit
  else if limit > gasCeil then
    let limit := parent.gasLimit - decay
    if limit < gasCeil then gasCeil else limit
  else limit

/-- Steps 1–3 of the spec: the parent's limit `L` moved by `contrib - decay`, floored at
`MinGasLimit`. -/
def targetLimit (D M u L : Nat) : Nat := max (L - (L / D - 1) + (u + u / 2) / D) M

/-- Steps 4–6: a limit below the floor is replaced by `L + decay` capped at the floor, one
above the ceiling by `L - decay` kept at or above the ceiling. -/
def honeLimit (D L gasFloor gasCeil limit : Nat) : Nat :=
  if limit < gasFloor then min (L + (L / D - 1)) gasFloor
  else if gasCeil < limit then max (L - (L / D - 1)) gasCeil
  else limit

/-- The spec's steps over unbounded naturals with truncating division. -/
def calcGasLimitExact (D M u L gasFloor gasCeil : Nat) : Nat :=
  honeLimit D L gasFloor gasCeil (targetLimit D M u L)

/-- What header verification guarantees of a parent, and the source assumes: `u ≤ L` and
`D ≤ L ≤ 2^63 - 1`. -/
structure ParentBounds (params : Params) (parent : Block Hash Bloom Tx) : Prop where
  used_le : parent.gasUsed ≤ parent.gasLimit
  divisor_le : params.gasLimitBoundDivisor ≤ parent.gasLimit
  limit_le : parent.gasLimit.toNat ≤ 2 ^ 63 - 1

instance (params : Params) (parent : Block Hash Bloom Tx) :
    Decidable (ParentBounds params parent) :=
  decidable_of_iff (parent.gasUsed ≤ parent.gasLimit ∧
      params.gasLimitBoundDivisor ≤ parent.gasLimit ∧ parent.gasLimit.toNat ≤ 2 ^ 63 - 1)
    ⟨fun ⟨a, b, c⟩ => ⟨a, b, c⟩, fun ⟨a, b, c⟩ => ⟨a, b, c⟩⟩

/-! ## Words and naturals -/

theorem toNat_add_of_lt {a b : UInt64} (h : a.toNat + b.toNat < 2 ^ 64) :
    (a + b).toNat = a.toNat + b.toNat :=
  BitVec.toNat_add_of_lt h

/-- The source's clamp `if a < b { a = b }`. -/
@[simp] theorem toNat_clampBelow (a b : UInt64) :
    (if a < b then b else a).toNat = max a.toNat b.toNat := by
  by_cases h : a < b
  · rw [if_pos h, Nat.max_eq_right (Nat.le_of_lt (lt_iff_toNat_lt.mp h))]
  · rw [if_neg h, Nat.max_eq_left (Nat.le_of_not_lt (mt lt_iff_toNat_lt.mpr h))]

/-- The source's clamp `if a > b { a = b }`, with `>` in simp's normal form. -/
@[simp] theorem toNat_clampAbove (a b : UInt64) :
    (if b < a then b else a).toNat = min a.toNat b.toNat := by
  by_cases h : b < a
  · rw [if_pos h, Nat.min_eq_right (Nat.le_of_lt (lt_iff_toNat_lt.mp h))]
  · rw [if_neg h, Nat.min_eq_left (Nat.le_of_not_lt (mt lt_iff_toNat_lt.mpr h))]

/-- The increase `contrib` is at most one and a half times `L / D`, plus one. -/
theorem contrib_le {D u L : Nat} (hD : 0 < D) (hu : u ≤ L) :
    (u + u / 2) / D ≤ L / D + L / D / 2 + 1 := by
  have hmono : (u + u / 2) / D ≤ (L + L / 2) / D := Nat.div_le_div_right (by omega)
  have hhalf : L / 2 / D = L / D / 2 := by
    rw [Nat.div_div_eq_div_mul, Nat.div_div_eq_div_mul, Nat.mul_comm]
  have hsplit := @Nat.add_div L (L / 2) D hD
  split_ifs at hsplit <;> omega

/-! ## No word operation wraps -/

/-- For `u ≤ L` and `0 < D ≤ L ≤ 2^63 - 1`, each word operation of `CalcGasLimit` computes
the same value as on naturals. -/
theorem wordOps_no_wrap {u L D : UInt64} (hu : u ≤ L) (hD : 0 < D) (hDL : D ≤ L)
    (hL : L.toNat ≤ 2 ^ 63 - 1) :
    (u + u / 2).toNat = u.toNat + u.toNat / 2 ∧
    1 ≤ L.toNat / D.toNat ∧ (L / D - 1).toNat = L.toNat / D.toNat - 1 ∧
    (L - (L / D - 1)).toNat = L.toNat - (L / D - 1).toNat ∧
    (L - (L / D - 1) + (u + u / 2) / D).toNat =
      L.toNat - (L / D - 1).toNat + ((u + u / 2) / D).toNat ∧
    (L + (L / D - 1)).toNat = L.toNat + (L / D - 1).toNat := by
  have hu := le_iff_toNat_le.mp hu
  have hDL := le_iff_toNat_le.mp hDL
  have hD : 0 < D.toNat := lt_iff_toNat_lt.mp hD
  have h1 : (1 : UInt64).toNat = 1 := rfl
  have h2 : (2 : UInt64).toNat = 2 := rfl
  have hsum : (u + u / 2).toNat = u.toNat + u.toNat / 2 :=
    toNat_add_of_lt (by rw [UInt64.toNat_div, h2]; omega)
  have hq : 1 ≤ L.toNat / D.toNat := Nat.div_pos hDL hD
  have hqL : L.toNat / D.toNat ≤ L.toNat := Nat.div_le_self _ _
  have hdecay : (L / D - 1).toNat = L.toNat / D.toNat - 1 := by
    rw [UInt64.toNat_sub_of_le _ _ (le_iff_toNat_le.mpr (by rw [UInt64.toNat_div, h1]; omega)),
      UInt64.toNat_div, h1]
  have hc := contrib_le hD hu
  have hsub := UInt64.toNat_sub_of_le L (L / D - 1) (le_iff_toNat_le.mpr (by omega))
  refine ⟨hsum, hq, hdecay, hsub, ?_, toNat_add_of_lt (by omega)⟩
  rw [toNat_add_of_lt (by rw [hsub, UInt64.toNat_div, hsum]; omega), hsub]

/-- The source's honing of `limit` towards `[gasFloor, gasCeil]`, whatever `L ± decay` are. -/
@[simp] theorem toNat_hone_words (L decay limit gasFloor gasCeil : UInt64) :
    (if limit < gasFloor then (if gasFloor < L + decay then gasFloor else L + decay)
      else if gasCeil < limit then (if L - decay < gasCeil then gasCeil else L - decay)
      else limit).toNat =
    if limit.toNat < gasFloor.toNat then min (L + decay).toNat gasFloor.toNat
    else if gasCeil.toNat < limit.toNat then max (L - decay).toNat gasCeil.toNat
    else limit.toNat := by
  by_cases h1 : limit < gasFloor
  · rw [if_pos h1, if_pos (lt_iff_toNat_lt.mp h1), toNat_clampAbove]
  · rw [if_neg h1, if_neg (mt lt_iff_toNat_lt.mpr h1)]
    by_cases h2 : gasCeil < limit
    · rw [if_pos h2, if_pos (lt_iff_toNat_lt.mp h2), toNat_clampBelow]
    · rw [if_neg h2, if_neg (mt lt_iff_toNat_lt.mpr h2)]

/-- Within `ParentBounds`, `CalcGasLimit` computes `calcGasLimitExact` on the words'
values. -/
theorem toNat_calcGasLimit {params : Params} {parent : Block Hash Bloom Tx}
    (hp : ParentBounds params parent) (gasFloor gasCeil : UInt64) :
    (calcGasLimit params parent gasFloor gasCeil).toNat =
      calcGasLimitExact params.gasLimitBoundDivisor.toNat params.minGasLimit.toNat
        parent.gasUsed.toNat parent.gasLimit.toNat gasFloor.toNat gasCeil.toNat := by
  obtain ⟨hsum, -, hdecay, hsub, hlim, hplus⟩ :=
    wordOps_no_wrap hp.used_le params.divisor_pos hp.divisor_le hp.limit_le
  have hle : parent.gasLimit / params.gasLimitBoundDivisor - 1 ≤ parent.gasLimit :=
    le_iff_toNat_le.mpr (by
      have := Nat.div_le_self parent.gasLimit.toNat params.gasLimitBoundDivisor.toNat
      omega)
  simp only [calcGasLimit, gt_iff_lt, toNat_hone_words, toNat_clampBelow, hlim, hplus,
    UInt64.toNat_sub_of_le _ _ hle, hdecay, UInt64.toNat_div, hsum]
  rfl

/-- For a parent within `ParentBounds` and every floor and ceiling, no word operation of
`CalcGasLimit` wraps, and its result equals the spec's steps over unbounded naturals. -/
theorem calcGasLimit_eq_exact (params : Params) (parent : Block Hash Bloom Tx)
    (gasFloor gasCeil : UInt64) (hp : ParentBounds params parent) :
    let u := parent.gasUsed
    let L := parent.gasLimit
    let D := params.gasLimitBoundDivisor
    ((u + u / 2).toNat = u.toNat + u.toNat / 2 ∧
      1 ≤ L.toNat / D.toNat ∧ (L / D - 1).toNat = L.toNat / D.toNat - 1 ∧
      (L - (L / D - 1)).toNat = L.toNat - (L / D - 1).toNat ∧
      (L - (L / D - 1) + (u + u / 2) / D).toNat =
        L.toNat - (L / D - 1).toNat + ((u + u / 2) / D).toNat ∧
      (L + (L / D - 1)).toNat = L.toNat + (L / D - 1).toNat) ∧
    (calcGasLimit params parent gasFloor gasCeil).toNat =
      calcGasLimitExact D.toNat params.minGasLimit.toNat u.toNat L.toNat gasFloor.toNat
        gasCeil.toNat :=
  ⟨wordOps_no_wrap hp.used_le params.divisor_pos hp.divisor_le hp.limit_le,
    toNat_calcGasLimit hp gasFloor gasCeil⟩

/-- The spec's worked example: `L = 10,000,000`, `u = 9,000,000`, `D = 1024`, band
`[8,000,000, 12,000,000]` gives `10,003,419`. -/
theorem calcGasLimit_eq_exact_example :
    ParentBounds ⟨1024, 5000, by decide⟩
      (⟨⟨(), (), (), (), (), (), 0, 10000000, 9000000⟩, [], []⟩ : Block Unit Unit Unit) ∧
    calcGasLimitExact 1024 5000 9000000 10000000 8000000 12000000 = 10003419 ∧
    (calcGasLimit ⟨1024, 5000, by decide⟩
      (⟨⟨(), (), (), (), (), (), 0, 10000000, 9000000⟩, [], []⟩ : Block Unit Unit Unit)
      8000000 12000000).toNat = 10003419 :=
  have hp : ParentBounds ⟨1024, 5000, by decide⟩
      (⟨⟨(), (), (), (), (), (), 0, 10000000, 9000000⟩, [], []⟩ : Block Unit Unit Unit) :=
    by decide
  ⟨hp, by decide, (calcGasLimit_eq_exact _ _ 8000000 12000000 hp).2.trans (by decide)⟩

/-! ## Below the divisor the decay wraps -/

/-- Below the divisor the decay `L / D - 1` wraps to `2^64 - 1`: `L + decay` is `L - 1`
(`2^64 - 1` at `L = 0`), and `L - decay` is `L + 1`. -/
theorem wordOps_below_divisor {u L D : UInt64} (hu : u ≤ L) (hLD : L < D)
    (hL : L.toNat ≤ 2 ^ 63 - 1) :
    (L + (L / D - 1)).toNat = (if L.toNat = 0 then 2 ^ 64 - 1 else L.toNat - 1) ∧
    (L - (L / D - 1)).toNat = L.toNat + 1 ∧
    (L - (L / D - 1) + (u + u / 2) / D).toNat =
      L.toNat + 1 + (u.toNat + u.toNat / 2) / D.toNat := by
  have hu := le_iff_toNat_le.mp hu
  have hLD := lt_iff_toNat_lt.mp hLD
  have h1 : (1 : UInt64).toNat = 1 := rfl
  have h2 : (2 : UInt64).toNat = 2 := rfl
  have hsum : (u + u / 2).toNat = u.toNat + u.toNat / 2 :=
    toNat_add_of_lt (by rw [UInt64.toNat_div, h2]; omega)
  have hplus1 : (L + 1).toNat = L.toNat + 1 := toNat_add_of_lt (by rw [h1]; omega)
  -- `u + u / 2 < 3 / 2 * D`
  have hc : (u.toNat + u.toNat / 2) / D.toNat ≤ 1 :=
    Nat.le_of_lt_succ (Nat.div_lt_of_lt_mul (by omega))
  -- the decay is `0 - 1`: adding it subtracts one, and subtracting it adds one
  have hq : L / D = 0 := UInt64.toNat.inj (by rw [UInt64.toNat_div, Nat.div_eq_of_lt hLD]; rfl)
  rw [hq, add_sub, add_zero, sub_sub_eq_add_sub, sub_zero]
  refine ⟨?_, hplus1, ?_⟩
  · split_ifs with h0
    · rw [show L = 0 from UInt64.toNat.inj h0]
      decide
    · rw [UInt64.toNat_sub_of_le _ _ (le_iff_toNat_le.mpr (by omega)), h1]
  · rw [toNat_add_of_lt (by rw [hplus1, UInt64.toNat_div, hsum]; omega), hplus1,
      UInt64.toNat_div, hsum]

/-- Below the divisor both honing steps turn around: a limit below the floor becomes
`L - 1` (the floor at `L = 0`), and one above the ceiling `max (L + 1) gasCeil`. -/
theorem calcGasLimit_below_divisor (params : Params) (parent : Block Hash Bloom Tx)
    (gasFloor gasCeil : UInt64) (hu : parent.gasUsed ≤ parent.gasLimit)
    (hLD : parent.gasLimit < params.gasLimitBoundDivisor)
    (hmax : parent.gasLimit.toNat ≤ 2 ^ 63 - 1) :
    (calcGasLimit params parent gasFloor gasCeil).toNat =
      let t := max (parent.gasLimit.toNat + 1 +
        (parent.gasUsed.toNat + parent.gasUsed.toNat / 2) / params.gasLimitBoundDivisor.toNat)
        params.minGasLimit.toNat
      if t < gasFloor.toNat then
        (if parent.gasLimit.toNat = 0 then gasFloor.toNat else parent.gasLimit.toNat - 1)
      else if gasCeil.toNat < t then max (parent.gasLimit.toNat + 1) gasCeil.toNat
      else t := by
  obtain ⟨hplus, hminus, hlim⟩ := wordOps_below_divisor hu hLD hmax
  have hfloor : gasFloor.toNat < 2 ^ 64 := gasFloor.toNat_lt_size
  simp only [calcGasLimit, gt_iff_lt, toNat_hone_words, toNat_clampBelow, hlim, hplus, hminus]
  -- the target `t` is above `L`, so `L - 1` is below a floor above `t`
  generalize ht : max (parent.gasLimit.toNat + 1 + (parent.gasUsed.toNat +
    parent.gasUsed.toNat / 2) / params.gasLimitBoundDivisor.toNat) params.minGasLimit.toNat = t
  have hLt : parent.gasLimit.toNat + 1 ≤ t := ht ▸ le_max_of_le_left (Nat.le_add_right _ _)
  simp only [Nat.min_def]
  split_ifs <;> omega

/-- go-ethereum's constants and a parent at `L = 100 < D = 1024`, below the band
`[8000, 10000]`: the next limit is 99. -/
theorem calcGasLimit_below_divisor_example :
    (0 : UInt64) ≤ 100 ∧ (100 : UInt64) < 1024 ∧
    (100 : UInt64).toNat ≤ 2 ^ 63 - 1 ∧
    (calcGasLimit ⟨1024, 5000, by decide⟩
      (⟨⟨(), (), (), (), (), (), 0, 100, 0⟩, [], []⟩ : Block Unit Unit Unit) 8000 10000).toNat =
      99 :=
  ⟨by decide, by decide, by decide,
    (calcGasLimit_below_divisor ⟨1024, 5000, by decide⟩
      (⟨⟨(), (), (), (), (), (), 0, 100, 0⟩, [], []⟩ : Block Unit Unit Unit) 8000 10000
      (by decide) (by decide) (by decide)).trans (by decide)⟩

end PureChain
