import Mathlib.Data.List.Basic

/-!
# Blocks, collaborators and validation errors

The data `core.BlockValidator` and `CalcGasLimit` read. A header keeps the fields some
check compares; a block adds its transactions and uncles. Hashes, blooms, transactions,
receipts and engine errors are opaque types, and every collaborator the validator
consults (chain view, consensus engine, the hashing functions of package `types`, the
post-state) is an arbitrary function. Header fields no modelled function reads (coinbase,
difficulty, time, extra data, seal fields) are left out.
-/

namespace PureChain

/-- The header fields read by block validation and by `CalcGasLimit`. The number is the
header's `*big.Int`. -/
structure Header (Hash Bloom : Type) where
  parentHash : Hash
  uncleHash : Hash
  root : Hash
  txHash : Hash
  receiptHash : Hash
  bloom : Bloom
  number : Nat
  gasLimit : UInt64
  gasUsed : UInt64

structure Block (Hash Bloom Tx : Type) where
  header : Header Hash Bloom
  transactions : List Tx
  uncles : List (Header Hash Bloom)

namespace Block

variable {Hash Bloom Tx : Type}

/-- `block.NumberU64()`: the low 64 bits of the header number. -/
def numberU64 (b : Block Hash Bloom Tx) : UInt64 := b.header.number.toUInt64

def parentHash (b : Block Hash Bloom Tx) : Hash := b.header.parentHash

def gasUsed (b : Block Hash Bloom Tx) : UInt64 := b.header.gasUsed

def gasLimit (b : Block Hash Bloom Tx) : UInt64 := b.header.gasLimit

end Block

/-- Errors of block validation: the sentinels of packages `core` and `consensus`, and the
mismatches, each with the two values its `fmt.Errorf` prints, in order. -/
inductive ValidationError (Hash Bloom EngineErr : Type) where
  | knownBlock
  | unknownAncestor
  | prunedAncestor
  | engine (err : EngineErr)
  | uncleRootMismatch (computed declared : Hash)
  | txRootMismatch (computed declared : Hash)
  | gasUsedMismatch (remote computed : UInt64)
  | bloomMismatch (remote computed : Bloom)
  | receiptRootMismatch (remote computed : Hash)
  | stateRootMismatch (remote computed : Hash)
  deriving DecidableEq, Repr

/-- The format string of each error raised in `block_validator.go`; the sentinels and the
engine's errors are defined outside it. -/
def ValidationError.format {Hash Bloom EngineErr : Type} :
    ValidationError Hash Bloom EngineErr → Option String
  | .uncleRootMismatch _ _ => some "uncle root hash mismatch: have %x, want %x"
  | .txRootMismatch _ _ => some "transaction root hash mismatch: have %x, want %x"
  | .gasUsedMismatch _ _ => some "invalid gas used (remote: %d local: %d)"
  | .bloomMismatch _ _ => some "invalid bloom (remote: %x  local: %x)"
  | .receiptRootMismatch _ _ => some "invalid receipt root hash (remote: %x local: %x)"
  | .stateRootMismatch _ _ => some "invalid merkle root (remote: %x local: %x)"
  | _ => none

/-- Read-only queries of the canonical chain (`*BlockChain`). -/
structure ChainView (Hash : Type) where
  hasBlockAndState : Hash → UInt64 → Bool
  hasBlock : Hash → UInt64 → Bool

/-- The consensus engine's uncle check; `none` is a nil error. -/
structure Engine (Hash Bloom Tx EngineErr : Type) where
  verifyUncles : ChainView Hash → Block Hash Bloom Tx → Option EngineErr

/-- The chain configuration; validation consults only the EIP-158 rule. -/
structure ChainConfig where
  isEIP158 : Nat → Bool

/-- The functions of package `types` the validator calls: the hash behind `block.Hash()`,
`CalcUncleHash`, `DeriveSha` over transactions and receipts, and `CreateBloom`. -/
structure Hashing (Hash Bloom Tx Receipt : Type) where
  blockHash : Header Hash Bloom → Hash
  calcUncleHash : List (Header Hash Bloom) → Hash
  deriveShaTxs : List Tx → Hash
  deriveShaReceipts : List Receipt → Hash
  createBloom : List Receipt → Bloom

/-- The post-state, through the one value validation reads: `IntermediateRoot`, whose
argument says whether empty objects are deleted. -/
structure StateDB (Hash : Type) where
  intermediateRoot : Bool → Hash

structure BlockValidator (Hash Bloom Tx EngineErr : Type) where
  config : ChainConfig
  bc : ChainView Hash
  engine : Engine Hash Bloom Tx EngineErr

end PureChain
