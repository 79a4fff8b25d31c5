import PureChain.GasLimit
import Mathlib.Data.List.Chain

/-!
# The gas limit as a control loop

Along a chain whose every block's gas limit is `CalcGasLimit` of its parent, the limit
moves into `[gasFloor, gasCeil]` by at least `decay` per block and never leaves it again;
`CalcGasLimit` is monotone in the parent's gas used and gas limit; and how far one block
can move the limit from its parent's, measured against the consensus bound `L / D`.
Everything is proved of `calcGasLimitExact` and carried to the word function by
`toNat_calcGasLimit`.
-/

namespace PureChain

variable {Hash Bloom Tx : Type}

/-- How far a gas limit is from `[gasFloor, gasCeil]`. -/
def bandDistance (gasFloor gasCeil L : Nat) : Nat := (gasFloor - L) + (L - gasCeil)

/-- A chain of blocks in which every parent is within `ParentBounds` and every child's gas
limit is `CalcGasLimit` of its parent. -/
def GasLimitChain (params : Params) (gasFloor gasCeil : UInt64)
    (blocks : List (Block Hash Bloom Tx)) : Prop :=
  blocks.Chain' fun parent child =>
    ParentBounds params parent ∧ child.gasLimit = calcGasLimit params parent gasFloor gasCeil

/-- Where one step of the loop takes the limit, relative to the band, and how much closer. -/
def HonesTowardBand (D gasFloor gasCeil L r : Nat) : Prop :=
  (gasFloor ≤ L → L ≤ gasCeil → gasFloor ≤ r ∧ r ≤ gasCeil) ∧
  (L < gasFloor → min (L + (L / D - 1)) gasFloor ≤ r ∧ r ≤ gasCeil) ∧
  (gasCeil < L → gasFloor ≤ r ∧ r ≤ max (L - (L / D - 1)) gasCeil) ∧
  bandDistance gasFloor gasCeil r ≤
    bandDistance gasFloor gasCeil L - min (bandDistance gasFloor gasCeil L) (L / D - 1)

section Exact

variable {D M u L gasFloor gasCeil : Nat}

theorem calcGasLimitExact_hones (hband : gasFloor ≤ gasCeil) :
    HonesTowardBand D gasFloor gasCeil L (calcGasLimitExact D M u L gasFloor gasCeil) := by
  unfold HonesTowardBand bandDistance calcGasLimitExact honeLimit
  split_ifs <;> omega

/-- The honing step is monotone in the limit it hones and in the parent's limit. -/
theorem honeLimit_mono {L₁ L₂ lim₁ lim₂ : Nat} (hband : gasFloor ≤ gasCeil)
    (hlim : lim₁ ≤ lim₂)
    (hup : L₁ + (L₁ / D - 1) ≤ L₂ + (L₂ / D - 1))
    (hdown : L₁ - (L₁ / D - 1) ≤ L₂ - (L₂ / D - 1)) :
    honeLimit D L₁ gasFloor gasCeil lim₁ ≤ honeLimit D L₂ gasFloor gasCeil lim₂ := by
  unfold honeLimit
  split_ifs <;> omega

/-- Raising `L` by `d` raises `L / D` by at most `d`. -/
theorem div_le_div_add_sub {L₁ L₂ : Nat} (hD : 0 < D) (h : L₁ ≤ L₂) :
    L₂ / D ≤ L₁ / D + (L₂ - L₁) := by
  obtain ⟨d, rfl⟩ := Nat.exists_eq_add_of_le h
  have hd : d ≤ d * D := Nat.le_mul_of_pos_right d hD
  calc (L₁ + d) / D ≤ (L₁ + d * D) / D := Nat.div_le_div_right (by omega)
    _ = L₁ / D + d := Nat.add_mul_div_right _ _ hD
    _ = L₁ / D + (L₁ + d - L₁) := by rw [Nat.add_sub_cancel_left]

theorem calcGasLimitExact_mono_used {u₁ u₂ : Nat} (hband : gasFloor ≤ gasCeil)
    (hu : u₁ ≤ u₂) :
    calcGasLimitExact D M u₁ L gasFloor gasCeil ≤
      calcGasLimitExact D M u₂ L gasFloor gasCeil := by
  have : (u₁ + u₁ / 2) / D ≤ (u₂ + u₂ / 2) / D := Nat.div_le_div_right (by omega)
  exact honeLimit_mono hband (by unfold targetLimit; omega) le_rfl le_rfl

theorem calcGasLimitExact_mono_limit {L₁ L₂ : Nat} (hD : 0 < D) (hband : gasFloor ≤ gasCeil)
    (hL : L₁ ≤ L₂) :
    calcGasLimitExact D M u L₁ gasFloor gasCeil ≤
      calcGasLimitExact D M u L₂ gasFloor gasCeil := by
  have h₁ : L₁ / D ≤ L₂ / D := Nat.div_le_div_right hL
  have h₂ := div_le_div_add_sub hD hL
  have h₃ := Nat.div_le_self L₂ D
  exact honeLimit_mono hband (by unfold targetLimit; omega) (by omega) (by omega)

/-- Against `|r - L| < L / D`: no drop by `L / D`, at least `MinGasLimit` under a ceiling
that is, and a rise below `L / D` once `L / D ≥ 5`. -/
theorem calcGasLimitExact_consensus (hD : 0 < D) (hDL : D ≤ L) (hu : u ≤ L) (hM : M ≤ L) :
    L < calcGasLimitExact D M u L gasFloor gasCeil + L / D ∧
    (M ≤ gasCeil → M ≤ calcGasLimitExact D M u L gasFloor gasCeil) ∧
    (5 ≤ L / D → calcGasLimitExact D M u L gasFloor gasCeil < L + L / D) := by
  have hc := contrib_le hD hu
  have hq : 1 ≤ L / D := Nat.div_pos hDL hD
  have hqL : L / D ≤ L := Nat.div_le_self L D
  unfold calcGasLimitExact honeLimit targetLimit
  generalize (u + u / 2) / D = contrib at *
  generalize L / D = q at *
  simp only [Nat.max_def, Nat.min_def]
  split_ifs <;> omega

end Exact

/-! ## The word function along chains of blocks -/

/-- Along every chain each block hones the limit toward the band, so its distance from the
band never grows and, once zero, stays zero, whatever gas the blocks use. -/
theorem gasLimitChain_converges (params : Params) (gasFloor gasCeil : UInt64)
    (hband : gasFloor ≤ gasCeil) (blocks : List (Block Hash Bloom Tx))
    (hchain : GasLimitChain params gasFloor gasCeil blocks) :
    blocks.Chain' (fun parent child => HonesTowardBand params.gasLimitBoundDivisor.toNat
      gasFloor.toNat gasCeil.toNat parent.gasLimit.toNat child.gasLimit.toNat) ∧
    (blocks.map fun b => bandDistance gasFloor.toNat gasCeil.toNat b.gasLimit.toNat).Pairwise
      (· ≥ ·) ∧
    blocks.Pairwise fun a b => bandDistance gasFloor.toNat gasCeil.toNat a.gasLimit.toNat = 0 →
      bandDistance gasFloor.toNat gasCeil.toNat b.gasLimit.toNat = 0 := by
  have hstep : blocks.Chain' fun parent child => HonesTowardBand
      params.gasLimitBoundDivisor.toNat gasFloor.toNat gasCeil.toNat parent.gasLimit.toNat
      child.gasLimit.toNat :=
    List.Chain'.imp (fun parent child ⟨hp, hc⟩ => by
      rw [hc, toNat_calcGasLimit hp]
      exact calcGasLimitExact_hones (le_iff_toNat_le.mp hband)) hchain
  have hdist : (blocks.map fun b => bandDistance gasFloor.toNat gasCeil.toNat
      b.gasLimit.toNat).Pairwise (· ≥ ·) :=
    List.chain'_iff_pairwise.mp (List.chain'_map_of_chain' _ (fun _ _ h => by
      have := h.2.2.2
      omega) hstep)
  exact ⟨hstep, hdist, (List.pairwise_map.mp hdist).imp fun h h0 => by omega⟩

/-- `CalcGasLimit` is monotone in the parent's gas used and in its gas limit: a fuller or
larger parent never yields a lower next limit. -/
theorem calcGasLimit_monotone (params : Params) (gasFloor gasCeil : UInt64)
    (hband : gasFloor ≤ gasCeil) :
    (∀ parent₁ parent₂ : Block Hash Bloom Tx, ParentBounds params parent₁ →
      ParentBounds params parent₂ → parent₁.gasLimit = parent₂.gasLimit →
      parent₁.gasUsed ≤ parent₂.gasUsed →
      calcGasLimit params parent₁ gasFloor gasCeil ≤
        calcGasLimit params parent₂ gasFloor gasCeil) ∧
    (∀ parent₁ parent₂ : Block Hash Bloom Tx, ParentBounds params parent₁ →
      ParentBounds params parent₂ → parent₁.gasUsed = parent₂.gasUsed →
      parent₁.gasLimit ≤ parent₂.gasLimit →
      calcGasLimit params parent₁ gasFloor gasCeil ≤
        calcGasLimit params parent₂ gasFloor gasCeil) := by
  have hband := le_iff_toNat_le.mp hband
  refine ⟨fun p₁ p₂ h₁ h₂ hL hu => ?_, fun p₁ p₂ h₁ h₂ hu hL => ?_⟩ <;>
    rw [le_iff_toNat_le, toNat_calcGasLimit h₁, toNat_calcGasLimit h₂]
  · rw [hL]
    exact calcGasLimitExact_mono_used hband (le_iff_toNat_le.mp hu)
  · rw [hu]
    exact calcGasLimitExact_mono_limit params.divisor_toNat_pos hband (le_iff_toNat_le.mp hL)

/-- An empty and a full parent of the same limit. -/
theorem calcGasLimit_monotone_example :
    (8000000 : UInt64) ≤ 12000000 ∧
    calcGasLimit ⟨1024, 5000, by decide⟩
        (⟨⟨(), (), (), (), (), (), 0, 10000000, 0⟩, [], []⟩ : Block Unit Unit Unit)
        8000000 12000000 ≤
      calcGasLimit ⟨1024, 5000, by decide⟩
        (⟨⟨(), (), (), (), (), (), 0, 10000000, 10000000⟩, [], []⟩ : Block Unit Unit Unit)
        8000000 12000000 :=
  ⟨by decide, (calcGasLimit_monotone _ 8000000 12000000 (by decide)).1 _ _ (by decide) (by decide)
    rfl (by decide)⟩

/-- Against `|r - L| < L / D`, for `D ≤ M`: no drop by `L / D`, at least `MinGasLimit`
under a ceiling that is, and a rise below `L / D` once `L / D ≥ 5`. -/
theorem calcGasLimit_consensus_bound (params : Params) (parent : Block Hash Bloom Tx)
    (gasFloor gasCeil : UInt64) (hu : parent.gasUsed ≤ parent.gasLimit)
    (hM : params.minGasLimit ≤ parent.gasLimit) (hL : parent.gasLimit.toNat ≤ 2 ^ 63 - 1)
    (hDM : params.gasLimitBoundDivisor ≤ params.minGasLimit) :
    parent.gasLimit.toNat < (calcGasLimit params parent gasFloor gasCeil).toNat +
      parent.gasLimit.toNat / params.gasLimitBoundDivisor.toNat ∧
    (params.minGasLimit ≤ gasCeil →
      params.minGasLimit ≤ calcGasLimit params parent gasFloor gasCeil) ∧
    (5 ≤ parent.gasLimit.toNat / params.gasLimitBoundDivisor.toNat →
      (calcGasLimit params parent gasFloor gasCeil).toNat <
        parent.gasLimit.toNat + parent.gasLimit.toNat / params.gasLimitBoundDivisor.toNat) := by
  have hM := le_iff_toNat_le.mp hM
  have hDM := le_iff_toNat_le.mp hDM
  have hp : ParentBounds params parent := ⟨hu, le_iff_toNat_le.mpr (by omega), hL⟩
  obtain ⟨h₁, h₂, h₃⟩ := @calcGasLimitExact_consensus params.gasLimitBoundDivisor.toNat
    params.minGasLimit.toNat parent.gasUsed.toNat parent.gasLimit.toNat gasFloor.toNat
    gasCeil.toNat params.divisor_toNat_pos (by omega) (le_iff_toNat_le.mp hu) hM
  rw [le_iff_toNat_le, le_iff_toNat_le, toNat_calcGasLimit hp]
  exact ⟨h₁, h₂, h₃⟩

/-- The spec's example parent with go-ethereum's constants. -/
theorem calcGasLimit_consensus_bound_example :
    (9000000 : UInt64) ≤ 10000000 ∧ (5000 : UInt64) ≤ 10000000 ∧
    (10000000 : UInt64).toNat ≤ 2 ^ 63 - 1 ∧ (1024 : UInt64) ≤ 5000 ∧
    (calcGasLimit ⟨1024, 5000, by decide⟩
      (⟨⟨(), (), (), (), (), (), 0, 10000000, 9000000⟩, [], []⟩ : Block Unit Unit Unit)
      8000000 12000000).toNat < 10000000 + 10000000 / 1024 :=
  ⟨by decide, by decide, by decide, by decide,
    (calcGasLimit_consensus_bound ⟨1024, 5000, by decide⟩
      (⟨⟨(), (), (), (), (), (), 0, 10000000, 9000000⟩, [], []⟩ : Block Unit Unit Unit)
      8000000 12000000 (by decide) (by decide) (by decide) (by decide)).2.2 (by decide)⟩

/-- go-ethereum's values of the two constants. -/
def upstreamParams : Params := ⟨1024, 5000, by decide⟩

/-- With go-ethereum's constants both can fail: a full parent at `L = 5000` moves to 5004,
and a ceiling below `MinGasLimit` pulls the limit to 4997. -/
theorem calcGasLimit_consensus_bound_fails :
    (¬ ∀ (parent : Block Unit Unit Unit) (gasFloor gasCeil : UInt64),
      parent.gasUsed ≤ parent.gasLimit → upstreamParams.minGasLimit ≤ parent.gasLimit →
      parent.gasLimit.toNat ≤ 2 ^ 63 - 1 →
      (calcGasLimit upstreamParams parent gasFloor gasCeil).toNat - parent.gasLimit.toNat +
        (parent.gasLimit.toNat - (calcGasLimit upstreamParams parent gasFloor gasCeil).toNat) <
        parent.gasLimit.toNat / upstreamParams.gasLimitBoundDivisor.toNat) ∧
    (¬ ∀ (parent : Block Unit Unit Unit) (gasFloor gasCeil : UInt64),
      parent.gasUsed ≤ parent.gasLimit → upstreamParams.minGasLimit ≤ parent.gasLimit →
      parent.gasLimit.toNat ≤ 2 ^ 63 - 1 →
      upstreamParams.minGasLimit ≤ calcGasLimit upstreamParams parent gasFloor gasCeil) :=
  ⟨fun h => absurd (h ⟨⟨(), (), (), (), (), (), 0, 5000, 5000⟩, [], []⟩ 5000 10000
      (by decide) (by decide) (by decide)) (by decide),
    fun h => absurd (h ⟨⟨(), (), (), (), (), (), 0, 5000, 0⟩, [], []⟩ 0 0
      (by decide) (by decide) (by decide)) (by decide)⟩

/-- A chain of three blocks starting below the band. -/
theorem gasLimitChain_converges_example :
    let blocks : List (Block Unit Unit Unit) :=
      [⟨⟨(), (), (), (), (), (), 0, 7000000, 0⟩, [], []⟩,
       ⟨⟨(), (), (), (), (), (), 1, 7006834, 7006834⟩, [], []⟩,
       ⟨⟨(), (), (), (), (), (), 2, 7013675, 0⟩, [], []⟩]
    (8000000 : UInt64) ≤ 12000000 ∧
    GasLimitChain ⟨1024, 5000, by decide⟩ 8000000 12000000 blocks ∧
    (blocks.map fun b => bandDistance 8000000 12000000 b.gasLimit.toNat).Pairwise (· ≥ ·) :=
  have hchain : GasLimitChain ⟨1024, 5000, by decide⟩ 8000000 12000000
      [(⟨⟨(), (), (), (), (), (), 0, 7000000, 0⟩, [], []⟩ : Block Unit Unit Unit),
       ⟨⟨(), (), (), (), (), (), 1, 7006834, 7006834⟩, [], []⟩,
       ⟨⟨(), (), (), (), (), (), 2, 7013675, 0⟩, [], []⟩] :=
    .cons ⟨by decide, by decide⟩ (.cons ⟨by decide, by decide⟩ .nil)
  ⟨by decide, hchain, (gasLimitChain_converges _ _ _ (by decide) _ hchain).2.1⟩

/-- The upper end of the range the spec gives holds for every band, an empty one included:
no branch takes the limit above `max(gasCeil, L + decay)`. -/
theorem calcGasLimit_le_ceil_or_raise (params : Params) (parent : Block Hash Bloom Tx)
    (gasFloor gasCeil : UInt64) (hp : ParentBounds params parent) :
    (calcGasLimit params parent gasFloor gasCeil).toNat ≤ max gasCeil.toNat
      (parent.gasLimit.toNat +
        (parent.gasLimit.toNat / params.gasLimitBoundDivisor.toNat - 1)) := by
  rw [toNat_calcGasLimit hp]
  unfold calcGasLimitExact honeLimit
  split_ifs <;> omega

/-- With the floor above the ceiling, a full parent at `L = 5000` is raised to exactly
`L + decay = 5003`. -/
theorem calcGasLimit_le_ceil_or_raise_example :
    ParentBounds upstreamParams
      (⟨⟨(), (), (), (), (), (), 0, 5000, 5000⟩, [], []⟩ : Block Unit Unit Unit) ∧
    (calcGasLimit upstreamParams
      (⟨⟨(), (), (), (), (), (), 0, 5000, 5000⟩, [], []⟩ : Block Unit Unit Unit)
      9000 1000).toNat = 5003 ∧
    (calcGasLimit upstreamParams
      (⟨⟨(), (), (), (), (), (), 0, 5000, 5000⟩, [], []⟩ : Block Unit Unit Unit)
      9000 1000).toNat ≤ max 1000 (5000 + (5000 / 1024 - 1)) :=
  ⟨by decide, by decide, calcGasLimit_le_ceil_or_raise _ _ _ _ (by decide)⟩

/-! ## How fast the band is reached -/

/-- With `m ≤ min L gasFloor` and `max L gasCeil ≤ M`, one step keeps the limit within
`[m, M]` and moves it at least `m / D - 1` closer to the band. -/
theorem HonesTowardBand.rate {D gasFloor gasCeil L r m M : Nat}
    (h : HonesTowardBand D gasFloor gasCeil L r) (hmL : m ≤ L) (hmf : m ≤ gasFloor)
    (hLM : L ≤ M) (hcM : gasCeil ≤ M) :
    m ≤ r ∧ r ≤ M ∧
      bandDistance gasFloor gasCeil r ≤ bandDistance gasFloor gasCeil L - (m / D - 1) := by
  obtain ⟨hin, hbelow, habove, hd⟩ := h
  refine ⟨?_, ?_, ?_⟩
  · by_cases hL : L < gasFloor
    · have := (hbelow hL).1
      omega
    · by_cases hc : L ≤ gasCeil
      · exact hmf.trans (hin (by omega) hc).1
      · exact hmf.trans (habove (by omega)).1
  · by_cases hc : gasCeil < L
    · have := (habove hc).2
      omega
    · by_cases hL : L < gasFloor
      · exact (hbelow hL).2.trans hcM
      · exact (hin (by omega) (by omega)).2.trans hcM
  · have hq : m / D ≤ L / D := Nat.div_le_div_right hmL
    omega

theorem GasLimitChain.rate {params : Params} {gasFloor gasCeil : UInt64}
    (hband : gasFloor ≤ gasCeil) {m M : Nat} (hmf : m ≤ gasFloor.toNat)
    (hcM : gasCeil.toNat ≤ M) :
    ∀ {first : Block Hash Bloom Tx} {blocks : List (Block Hash Bloom Tx)},
      GasLimitChain params gasFloor gasCeil (first :: blocks) → m ≤ first.gasLimit.toNat →
      first.gasLimit.toNat ≤ M →
      ∀ n b, (first :: blocks)[n]? = some b → m ≤ b.gasLimit.toNat ∧ b.gasLimit.toNat ≤ M ∧
        bandDistance gasFloor.toNat gasCeil.toNat b.gasLimit.toNat ≤
          bandDistance gasFloor.toNat gasCeil.toNat first.gasLimit.toNat -
            n * (m / params.gasLimitBoundDivisor.toNat - 1)
  | first, [], _, hm, hM, n, b, hb => by
    cases n with
    | zero => cases hb; simp [hm, hM]
    | succ n => simp at hb
  | first, child :: blocks, hchain, hm, hM, n, b, hb => by
    obtain ⟨⟨hp, hc⟩, hchain⟩ := List.chain_cons.mp hchain
    have hstep : HonesTowardBand params.gasLimitBoundDivisor.toNat gasFloor.toNat
        gasCeil.toNat first.gasLimit.toNat child.gasLimit.toNat := by
      rw [hc, toNat_calcGasLimit hp]
      exact calcGasLimitExact_hones (le_iff_toNat_le.mp hband)
    obtain ⟨hm', hM', hd⟩ := hstep.rate hm hmf hM hcM
    cases n with
    | zero => cases hb; simp [hm, hM]
    | succ n =>
      rw [List.getElem?_cons_succ] at hb
      obtain ⟨hmb, hMb, hdb⟩ := GasLimitChain.rate hband hmf hcM hchain hm' hM' n b hb
      refine ⟨hmb, hMb, ?_⟩
      rw [Nat.succ_mul]
      omega

/-- How fast a chain reaches the band: limits stay in `[m, max L₀ gasCeil]` for
`m = min L₀ gasFloor`, and block `n` is `n * (m / D - 1)` nearer the band than the first. -/
theorem gasLimitChain_distance_le (params : Params) (gasFloor gasCeil : UInt64)
    (hband : gasFloor ≤ gasCeil) (first : Block Hash Bloom Tx)
    (blocks : List (Block Hash Bloom Tx))
    (hchain : GasLimitChain params gasFloor gasCeil (first :: blocks)) (n : Nat)
    (b : Block Hash Bloom Tx) (hb : (first :: blocks)[n]? = some b) :
    min first.gasLimit.toNat gasFloor.toNat ≤ b.gasLimit.toNat ∧
    b.gasLimit.toNat ≤ max first.gasLimit.toNat gasCeil.toNat ∧
    bandDistance gasFloor.toNat gasCeil.toNat b.gasLimit.toNat ≤
      bandDistance gasFloor.toNat gasCeil.toNat first.gasLimit.toNat -
        n * (min first.gasLimit.toNat gasFloor.toNat / params.gasLimitBoundDivisor.toNat - 1) :=
  GasLimitChain.rate hband (min_le_right _ _) (le_max_right _ _) hchain (min_le_left _ _)
    (le_max_left _ _) n b hb

/-- From `L = 7,000,000` below the band `[8,000,000, 12,000,000]`, each block closes at
least `7,000,000 / 1024 - 1 = 6834` of the distance. -/
theorem gasLimitChain_distance_le_example :
    let blocks : List (Block Unit Unit Unit) :=
      [⟨⟨(), (), (), (), (), (), 1, 7006834, 7006834⟩, [], []⟩,
       ⟨⟨(), (), (), (), (), (), 2, 7013675, 0⟩, [], []⟩]
    (8000000 : UInt64) ≤ 12000000 ∧
    GasLimitChain ⟨1024, 5000, by decide⟩ 8000000 12000000
      (⟨⟨(), (), (), (), (), (), 0, 7000000, 0⟩, [], []⟩ :: blocks) ∧
    bandDistance 8000000 12000000 7013675 ≤
      bandDistance 8000000 12000000 7000000 - 2 * (min 7000000 8000000 / 1024 - 1) :=
  have hchain : GasLimitChain ⟨1024, 5000, by decide⟩ 8000000 12000000
      [(⟨⟨(), (), (), (), (), (), 0, 7000000, 0⟩, [], []⟩ : Block Unit Unit Unit),
       ⟨⟨(), (), (), (), (), (), 1, 7006834, 7006834⟩, [], []⟩,
       ⟨⟨(), (), (), (), (), (), 2, 7013675, 0⟩, [], []⟩] :=
    .cons ⟨by decide, by decide⟩ (.cons ⟨by decide, by decide⟩ .nil)
  ⟨by decide, hchain,
    (gasLimitChain_distance_le _ 8000000 12000000 (by decide) _ _ hchain 2 _ rfl).2.2⟩

end PureChain
