import EmailVerifier.Data.Netip

/-! Addresses that no probe may reach: `internal/resolver/guard.go`. -/

set_option autoImplicit false

namespace EmailVerifier.Resolver
open Text Data

structure BlockedPrefix where
  network : Network
  reason : Str

def blocked4 (a b c d bits : Nat) (reason : String) : BlockedPrefix := ⟨⟨.v4 (ip4 a b c d), bits⟩, lit reason⟩

def blocked6 (groups : List Nat) (bits : Nat) (reason : String) : BlockedPrefix := ⟨⟨.v6 (ip6 groups) [], bits⟩, lit reason⟩

def blockedPrefixes : List BlockedPrefix := [
  blocked4 0 0 0 0 8 "this network",
  blocked4 100 64 0 0 10 "carrier-grade NAT",
  blocked4 192 0 0 0 24 "IETF protocol assignments",
  blocked4 192 0 2 0 24 "documentation (TEST-NET-1)",
  blocked4 192 88 99 0 24 "6to4 relay anycast",
  blocked4 198 18 0 0 15 "benchmarking",
  blocked4 198 51 100 0 24 "documentation (TEST-NET-2)",
  blocked4 203 0 113 0 24 "documentation (TEST-NET-3)",
  blocked4 240 0 0 0 4 "reserved",
  blocked6 [0, 0, 0, 0, 0, 0, 0, 0] 96 "IPv4-compatible IPv6",
  blocked6 [0, 0, 0, 0, 0, 0xffff, 0, 0] 96 "IPv4-mapped IPv6",
  blocked6 [0x64, 0xff9b, 0, 0, 0, 0, 0, 0] 96 "NAT64",
  blocked6 [0x100, 0, 0, 0, 0, 0, 0, 0] 64 "discard-only",
  blocked6 [0x2001, 0, 0, 0, 0, 0, 0, 0] 32 "Teredo",
  blocked6 [0x2001, 0x20, 0, 0, 0, 0, 0, 0] 28 "ORCHIDv2",
  blocked6 [0x2001, 0xdb8, 0, 0, 0, 0, 0, 0] 32 "documentation",
  blocked6 [0x2002, 0, 0, 0, 0, 0, 0, 0] 16 "6to4 — embeds an arbitrary IPv4 address"]

def Blocked (addr : Addr) : Bool × Str :=
  if ¬ addr.IsValid then (true, lit "invalid address")
  else if addr.Zone ≠ [] then (true, lit "zoned address")
  else if addr.IsUnspecified then (true, lit "unspecified")
  else if addr.IsLoopback then (true, lit "loopback")
  else if addr.IsPrivate then (true, lit "private")
  else if addr.IsLinkLocalUnicast then (true, lit "link-local")
  else if addr.IsLinkLocalMulticast ∨ addr.IsInterfaceLocalMulticast ∨ addr.IsMulticast then (true, lit "multicast")
  else match blockedPrefixes.find? fun b => b.network.Contains addr with
    | some b => (true, b.reason)
    | none => if ¬ addr.IsGlobalUnicast then (true, lit "not global unicast") else (false, [])

end EmailVerifier.Resolver
