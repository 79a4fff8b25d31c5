import Mathlib.Data.List.Basic

/-!
# Known DNS node lists

`KnownDNSNetwork` of `params/bootnodes.go` gives the `enrtree://` address of the public DNS
node list for a genesis hash and a protocol: the signing key's prefix `dnsPrefix`, then
the protocol, the network's name and the list's domain. Only the main network has a list,
and for every other genesis the address is empty. `MainnetGenesisHash` is declared in
another file of package `params`, so it is a parameter; the bootnode URL lists of the same
file are data nothing here reads.
-/

namespace PureChain.Bootnodes

def dnsPrefix : String := "enrtree://AKA3AM6LPBYEUDMVNU3BSVQJ5AD45Y7YPOHJLEF6W26QOE4VTUDPE@"

variable {Hash : Type} [DecidableEq Hash]

/-- `KnownDNSNetwork(genesis, protocol)`: the `switch` names the network of a known genesis
hash, and the `default` case returns the empty string. -/
def knownDNSNetwork (mainnetGenesisHash genesis : Hash) (protocol : String) : String :=
  if genesis = mainnetGenesisHash then
    let net := "mainnet"
    dnsPrefix ++ protocol ++ "." ++ net ++ ".ethdisco.net"
  else ""

@[simp] theorem mainnetAddress_ne_empty (protocol : String) :
    dnsPrefix ++ protocol ++ "." ++ "mainnet" ++ ".ethdisco.net" ≠ "" := by
  intro h
  have := congrArg String.length h
  simp only [String.length_append, String.length_empty, Nat.add_eq_zero] at this
  exact absurd this.2 (by decide)

/-- The main network's address determines the protocol: the prefix and the suffix cancel. -/
theorem mainnetAddress_inj {protocol protocol' : String}
    (h : dnsPrefix ++ protocol ++ "." ++ "mainnet" ++ ".ethdisco.net" =
      dnsPrefix ++ protocol' ++ "." ++ "mainnet" ++ ".ethdisco.net") :
    protocol = protocol' := by
  rw [String.ext_iff] at h ⊢
  simpa only [String.data_append, List.append_assoc, List.append_cancel_left_eq,
    List.append_cancel_right_eq] using h

@[simp] theorem knownDNSNetwork_eq_empty_iff (mainnetGenesisHash genesis : Hash)
    (protocol : String) :
    knownDNSNetwork mainnetGenesisHash genesis protocol = "" ↔ genesis ≠ mainnetGenesisHash := by
  unfold knownDNSNetwork
  split_ifs with hg <;> simp [hg]

/-- A nonempty address names its list: it comes only from the main network's genesis hash,
and no two protocols share it. -/
theorem knownDNSNetwork_injective (mainnetGenesisHash genesis genesis' : Hash)
    (protocol protocol' : String)
    (h : knownDNSNetwork mainnetGenesisHash genesis protocol =
      knownDNSNetwork mainnetGenesisHash genesis' protocol')
    (hne : knownDNSNetwork mainnetGenesisHash genesis protocol ≠ "") :
    genesis = mainnetGenesisHash ∧ genesis' = mainnetGenesisHash ∧ protocol = protocol' := by
  have hg : genesis = mainnetGenesisHash := by simpa using hne
  have hg' : genesis' = mainnetGenesisHash := by simpa [h] using hne
  refine ⟨hg, hg', mainnetAddress_inj ?_⟩
  simpa only [knownDNSNetwork, hg, hg', if_true] using h

theorem knownDNSNetwork_injective_les :
    knownDNSNetwork 1 1 "les" = knownDNSNetwork 1 1 "les" ∧ knownDNSNetwork 1 1 "les" ≠ "" ∧
      (1 = 1 ∧ 1 = 1 ∧ "les" = "les") :=
  ⟨rfl, by decide, knownDNSNetwork_injective 1 1 1 "les" "les" rfl (by decide)⟩

end PureChain.Bootnodes
