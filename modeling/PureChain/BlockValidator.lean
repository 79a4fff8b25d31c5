import PureChain.Types
import PureChain.FanIn

/-!
# Block validation

`ValidateBody` makes three sequential checks and then fans three concurrent checks in;
`ValidateState` makes one sequential check and then fans three in. Each is modelled as the
part up to the fan-in, an `Except` whose success value is what the three checks of
`validateFuns` return, followed by the goroutine model of `FanIn`: a result of the Go
function is what its caller returns under some interleaving (`FanIn.Outcome`).

The string of transactions built when the state root mismatches is never read, so it is
left out.
-/

namespace PureChain

open FanIn

variable {Hash Bloom Tx Receipt EngineErr : Type} [DecidableEq Hash]

namespace BlockValidator

variable (types : Hashing Hash Bloom Tx Receipt) (v : BlockValidator Hash Bloom Tx EngineErr)
  (block : Block Hash Bloom Tx)

/-- The three checks `ValidateBody` runs concurrently (its `validateFuns`): known block,
transaction root, ancestor. -/
def bodyChecks : List (Option (ValidationError Hash Bloom EngineErr)) := [
  if v.bc.hasBlockAndState (types.blockHash block.header) block.numberU64 then
    some .knownBlock
  else none,
  let hash := types.deriveShaTxs block.transactions
  if hash ≠ block.header.txHash then some (.txRootMismatch hash block.header.txHash)
  else none,
  if !v.bc.hasBlockAndState block.parentHash (block.numberU64 - 1) then
    if !v.bc.hasBlock block.parentHash (block.numberU64 - 1) then some .unknownAncestor
    else some .prunedAncestor
  else none]

/-- `ValidateBody` up to its fan-in: an early error, or the checks it fans in. -/
def validateBodySequential :
    Except (ValidationError Hash Bloom EngineErr)
      (List (Option (ValidationError Hash Bloom EngineErr))) :=
  if v.bc.hasBlockAndState (types.blockHash block.header) block.numberU64 then
    .error .knownBlock
  else match v.engine.verifyUncles v.bc block with
  | some err => .error (.engine err)
  | none =>
    let hash := types.calcUncleHash block.uncles
    if hash ≠ block.header.uncleHash then .error (.uncleRootMismatch hash block.header.uncleHash)
    else .ok (bodyChecks types v block)

/-- `r` is what `ValidateBody` returns under some interleaving; `none` is a nil error. -/
def ValidateBody (r : Option (ValidationError Hash Bloom EngineErr)) : Prop :=
  Outcome (validateBodySequential types v block) r

/-- What `ValidateBody` is for: the block is not already known with its state, its uncles
verify, both roots match the header, and its parent is known with its state. -/
def BodyValid : Prop :=
  v.bc.hasBlockAndState (types.blockHash block.header) block.numberU64 = false ∧
  v.engine.verifyUncles v.bc block = none ∧
  types.calcUncleHash block.uncles = block.header.uncleHash ∧
  types.deriveShaTxs block.transactions = block.header.txHash ∧
  v.bc.hasBlockAndState block.parentHash (block.numberU64 - 1) = true

/-- The errors `ValidateBody` may report: the first failing sequential check, else the
error of any concurrent check that fails. -/
def BodyError (e : ValidationError Hash Bloom EngineErr) : Prop :=
  if v.bc.hasBlockAndState (types.blockHash block.header) block.numberU64 then e = .knownBlock
  else match v.engine.verifyUncles v.bc block with
  | some err => e = .engine err
  | none =>
    if types.calcUncleHash block.uncles ≠ block.header.uncleHash then
      e = .uncleRootMismatch (types.calcUncleHash block.uncles) block.header.uncleHash
    else
      (types.deriveShaTxs block.transactions ≠ block.header.txHash ∧
        e = .txRootMismatch (types.deriveShaTxs block.transactions) block.header.txHash) ∨
      (v.bc.hasBlockAndState block.parentHash (block.numberU64 - 1) = false ∧
        v.bc.hasBlock block.parentHash (block.numberU64 - 1) = false ∧ e = .unknownAncestor) ∨
      (v.bc.hasBlockAndState block.parentHash (block.numberU64 - 1) = false ∧
        v.bc.hasBlock block.parentHash (block.numberU64 - 1) = true ∧ e = .prunedAncestor)

theorem bodyChecks_all_none
    (hk : v.bc.hasBlockAndState (types.blockHash block.header) block.numberU64 = false) :
    (∀ x ∈ bodyChecks types v block, x = none) ↔
      types.deriveShaTxs block.transactions = block.header.txHash ∧
      v.bc.hasBlockAndState block.parentHash (block.numberU64 - 1) = true := by
  cases hp : v.bc.hasBlockAndState block.parentHash (block.numberU64 - 1) <;>
  cases hb : v.bc.hasBlock block.parentHash (block.numberU64 - 1) <;>
  by_cases htx : types.deriveShaTxs block.transactions = block.header.txHash <;>
  simp [bodyChecks, hk, hp, hb, htx]

theorem mem_bodyChecks
    (hk : v.bc.hasBlockAndState (types.blockHash block.header) block.numberU64 = false)
    (e : ValidationError Hash Bloom EngineErr) :
    some e ∈ bodyChecks types v block ↔
      (types.deriveShaTxs block.transactions ≠ block.header.txHash ∧
        e = .txRootMismatch (types.deriveShaTxs block.transactions) block.header.txHash) ∨
      (v.bc.hasBlockAndState block.parentHash (block.numberU64 - 1) = false ∧
        v.bc.hasBlock block.parentHash (block.numberU64 - 1) = false ∧ e = .unknownAncestor) ∨
      (v.bc.hasBlockAndState block.parentHash (block.numberU64 - 1) = false ∧
        v.bc.hasBlock block.parentHash (block.numberU64 - 1) = true ∧ e = .prunedAncestor) := by
  cases hp : v.bc.hasBlockAndState block.parentHash (block.numberU64 - 1) <;>
  cases hb : v.bc.hasBlock block.parentHash (block.numberU64 - 1) <;>
  by_cases htx : types.deriveShaTxs block.transactions = block.header.txHash <;>
  simp [bodyChecks, hk, hp, hb, htx, eq_comm]

theorem bodyValid_iff : BodyValid types v block ↔
    ∃ validateFuns, validateBodySequential types v block = .ok validateFuns ∧
      ∀ x ∈ validateFuns, x = none := by
  unfold BodyValid validateBodySequential
  cases hk : v.bc.hasBlockAndState (types.blockHash block.header) block.numberU64
  · cases hu : v.engine.verifyUncles v.bc block with
    | some err => simp
    | none =>
      by_cases hh : types.calcUncleHash block.uncles = block.header.uncleHash
      · simp [hh, bodyChecks_all_none types v block hk]
      · simp [hh]
  · simp

theorem bodyError_iff (e : ValidationError Hash Bloom EngineErr) :
    BodyError types v block e ↔ validateBodySequential types v block = .error e ∨
      ∃ validateFuns, validateBodySequential types v block = .ok validateFuns ∧
        some e ∈ validateFuns := by
  unfold BodyError validateBodySequential
  cases hk : v.bc.hasBlockAndState (types.blockHash block.header) block.numberU64
  · cases hu : v.engine.verifyUncles v.bc block with
    | some err => simp [eq_comm]
    | none =>
      by_cases hh : types.calcUncleHash block.uncles = block.header.uncleHash
      · simp [hh, mem_bodyChecks types v block hk]
      · simp [hh, eq_comm]
  · simp [eq_comm]

/-- `ValidateBody` returns nil exactly when the block is valid, else the first failing
sequential check's or a failing concurrent check's error; nil only once all checks sent. -/
theorem validateBody_spec :
    (∃ r, ValidateBody types v block r) ∧
    (∀ r, ValidateBody types v block r →
      (r = none ↔ BodyValid types v block) ∧
      ∀ e, r = some e → BodyError types v block e) ∧
    ∀ validateFuns, validateBodySequential types v block = .ok validateFuns →
      ∀ s, Reachable validateFuns s → s.caller = .returned none →
        s.goroutines.length = validateFuns.length ∧ (∀ g ∈ s.goroutines, g.sent = true) ∧
          ∀ x ∈ validateFuns, x = none :=
  ⟨outcome_exists _,
    fun _ hr => ⟨hr.eq_none_iff.trans (bodyValid_iff types v block).symm,
      fun e he => (bodyError_iff types v block e).mpr (outcome_some_iff.mp (he ▸ hr))⟩,
    fun _ _ _ hs hret => hs.returned_none hret⟩

/-- The documented non-determinism is exact: every error `BodyError` allows is returned
under some interleaving. -/
theorem validateBody_error_iff (e : ValidationError Hash Bloom EngineErr) :
    ValidateBody types v block (some e) ↔ BodyError types v block e :=
  outcome_some_iff.trans (bodyError_iff types v block e).symm

section State

variable [DecidableEq Bloom] (statedb : StateDB Hash) (receipts : List Receipt) (usedGas : UInt64)

/-- The three checks `ValidateState` runs concurrently (its `validateFuns`): bloom, receipt
root, state root. -/
def stateChecks : List (Option (ValidationError Hash Bloom EngineErr)) := [
  let rbloom := types.createBloom receipts
  if rbloom ≠ block.header.bloom then some (.bloomMismatch block.header.bloom rbloom) else none,
  let receiptSha := types.deriveShaReceipts receipts
  if receiptSha ≠ block.header.receiptHash then
    some (.receiptRootMismatch block.header.receiptHash receiptSha)
  else none,
  let root := statedb.intermediateRoot (v.config.isEIP158 block.header.number)
  if block.header.root ≠ root then some (.stateRootMismatch block.header.root root) else none]

/-- `ValidateState` up to its fan-in: the gas-used error, or the checks it fans in. -/
def validateStateSequential :
    Except (ValidationError Hash Bloom EngineErr)
      (List (Option (ValidationError Hash Bloom EngineErr))) :=
  if block.gasUsed ≠ usedGas then .error (.gasUsedMismatch block.gasUsed usedGas)
  else .ok (stateChecks types v block statedb receipts)

/-- `r` is what `ValidateState` returns under some interleaving; `none` is a nil error. -/
def ValidateState (r : Option (ValidationError Hash Bloom EngineErr)) : Prop :=
  Outcome (validateStateSequential types v block statedb receipts usedGas) r

/-- What `ValidateState` is for: gas used, bloom, receipt root and state root all match. -/
def StateValid : Prop :=
  block.gasUsed = usedGas ∧ types.createBloom receipts = block.header.bloom ∧
  types.deriveShaReceipts receipts = block.header.receiptHash ∧
  statedb.intermediateRoot (v.config.isEIP158 block.header.number) = block.header.root

/-- The error of a failing concurrent check of `ValidateState`. -/
def StateCheckError (e : ValidationError Hash Bloom EngineErr) : Prop :=
  (types.createBloom receipts ≠ block.header.bloom ∧
    e = .bloomMismatch block.header.bloom (types.createBloom receipts)) ∨
  (types.deriveShaReceipts receipts ≠ block.header.receiptHash ∧
    e = .receiptRootMismatch block.header.receiptHash (types.deriveShaReceipts receipts)) ∨
  (statedb.intermediateRoot (v.config.isEIP158 block.header.number) ≠ block.header.root ∧
    e = .stateRootMismatch block.header.root
      (statedb.intermediateRoot (v.config.isEIP158 block.header.number)))

theorem stateChecks_all_none :
    (∀ x ∈ stateChecks types v block statedb receipts, x = none) ↔
      types.createBloom receipts = block.header.bloom ∧
      types.deriveShaReceipts receipts = block.header.receiptHash ∧
      statedb.intermediateRoot (v.config.isEIP158 block.header.number) = block.header.root := by
  by_cases hb : types.createBloom receipts = block.header.bloom <;>
  by_cases hr : types.deriveShaReceipts receipts = block.header.receiptHash <;>
  by_cases hs : statedb.intermediateRoot (v.config.isEIP158 block.header.number) =
    block.header.root <;>
  simp [stateChecks, hb, hr, hs, Ne.symm]

theorem mem_stateChecks (e : ValidationError Hash Bloom EngineErr) :
    some e ∈ stateChecks types v block statedb receipts ↔
      StateCheckError types v block statedb receipts e := by
  by_cases hb : types.createBloom receipts = block.header.bloom <;>
  by_cases hr : types.deriveShaReceipts receipts = block.header.receiptHash <;>
  by_cases hs : statedb.intermediateRoot (v.config.isEIP158 block.header.number) =
    block.header.root <;>
  simp [stateChecks, StateCheckError, hb, hr, hs, eq_comm, Ne.symm]

theorem stateValid_iff : StateValid types v block statedb receipts usedGas ↔
    ∃ validateFuns, validateStateSequential types v block statedb receipts usedGas =
      .ok validateFuns ∧ ∀ x ∈ validateFuns, x = none := by
  by_cases hg : block.gasUsed = usedGas <;>
  simp [StateValid, validateStateSequential, hg, stateChecks_all_none]

/-- `ValidateState` returns nil exactly when all four fields match; a wrong gas used is
always the error, else a failing concurrent check's, so one wrong field gets its error. -/
theorem validateState_spec :
    (∃ r, ValidateState types v block statedb receipts usedGas r) ∧
    ∀ r, ValidateState types v block statedb receipts usedGas r →
      (r = none ↔ StateValid types v block statedb receipts usedGas) ∧
      (block.gasUsed ≠ usedGas → r = some (.gasUsedMismatch block.gasUsed usedGas)) ∧
      (∀ e, r = some e → block.gasUsed = usedGas →
        StateCheckError types v block statedb receipts e) ∧
      (block.gasUsed = usedGas → types.createBloom receipts ≠ block.header.bloom →
        types.deriveShaReceipts receipts = block.header.receiptHash →
        statedb.intermediateRoot (v.config.isEIP158 block.header.number) = block.header.root →
        r = some (.bloomMismatch block.header.bloom (types.createBloom receipts))) ∧
      (block.gasUsed = usedGas → types.createBloom receipts = block.header.bloom →
        types.deriveShaReceipts receipts ≠ block.header.receiptHash →
        statedb.intermediateRoot (v.config.isEIP158 block.header.number) = block.header.root →
        r = some (.receiptRootMismatch block.header.receiptHash
          (types.deriveShaReceipts receipts))) ∧
      (block.gasUsed = usedGas → types.createBloom receipts = block.header.bloom →
        types.deriveShaReceipts receipts = block.header.receiptHash →
        statedb.intermediateRoot (v.config.isEIP158 block.header.number) ≠ block.header.root →
        r = some (.stateRootMismatch block.header.root
          (statedb.intermediateRoot (v.config.isEIP158 block.header.number)))) := by
  refine ⟨outcome_exists _, fun r hr => ?_⟩
  have hnone := hr.eq_none_iff.trans (stateValid_iff types v block statedb receipts usedGas).symm
  have hcheck : ∀ e, r = some e → block.gasUsed = usedGas →
      StateCheckError types v block statedb receipts e := fun e he hg => by
    rw [he] at hr
    rcases outcome_some_iff.mp hr with h | ⟨_, h, hmem⟩ <;>
      simp only [validateStateSequential, hg, ne_eq, not_true_eq_false, if_false] at h
    · cases h
    · cases h
      exact (mem_stateChecks types v block statedb receipts e).mp hmem
  refine ⟨hnone, fun hg => ?_, hcheck, fun hg hb hrc hs => ?_, fun hg hb hrc hs => ?_,
    fun hg hb hrc hs => ?_⟩
  · simpa [ValidateState, validateStateSequential, hg, Outcome] using hr
  all_goals
    cases r with
    | none => have := hnone.mp rfl; simp_all [StateValid]
    | some e =>
      have := hcheck e rfl hg
      simp only [StateCheckError, hb, hrc, hs] at this
      simp_all

/-- Each error the spec allows is returned under some interleaving. -/
theorem validateState_error_iff (e : ValidationError Hash Bloom EngineErr) :
    ValidateState types v block statedb receipts usedGas (some e) ↔
      (block.gasUsed ≠ usedGas ∧ e = .gasUsedMismatch block.gasUsed usedGas) ∨
      (block.gasUsed = usedGas ∧ StateCheckError types v block statedb receipts e) := by
  rw [ValidateState, outcome_some_iff]
  by_cases hg : block.gasUsed = usedGas <;>
  simp [validateStateSequential, hg, mem_stateChecks, eq_comm]

end State

end BlockValidator

end PureChain
