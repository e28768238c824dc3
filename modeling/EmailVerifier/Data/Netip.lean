import EmailVerifier.Text.Bytes

/-! IP addresses as `net/netip` has them: the zero value, four bytes, or sixteen bytes with
a zone. The predicates are those of the documentation; an address mapped from IPv4 is
judged as the address it stands for.
-/

set_option autoImplicit false

namespace EmailVerifier.Data
open Text

inductive Addr where
  | invalid
  | v4 (bits : BitVec 32)
  | v6 (bits : BitVec 128) (zone : Str)
  deriving DecidableEq, Repr

def ip4 (a b c d : Nat) : BitVec 32 := BitVec.ofNat 32 (((a * 256 + b) * 256 + c) * 256 + d)

def ip6 (groups : List Nat) : BitVec 128 := BitVec.ofNat 128 (groups.foldl (fun n group => n * 65536 + group) 0)

namespace Addr

def IsValid : Addr → Bool
  | invalid => false
  | _ => true

def Zone : Addr → Str
  | v6 _ zone => zone
  | _ => []

def Unmap : Addr → Addr
  | v6 x zone => if x >>> 32 = 0xffff then v4 (x.truncate 32) else v6 x zone
  | a => a

def IsUnspecified : Addr → Bool
  | v4 x => x = 0
  | v6 x zone => x = 0 ∧ zone = []
  | invalid => false

def IsLoopback (a : Addr) : Bool :=
  match a.Unmap with
  | v4 x => x >>> 24 = 127
  | v6 x _ => x = 1
  | invalid => false

def IsPrivate (a : Addr) : Bool :=
  match a.Unmap with
  | v4 x => x >>> 24 = 10 ∨ x >>> 20 = 0xac1 ∨ x >>> 16 = 0xc0a8
  | v6 x _ => x >>> 121 = 0x7e
  | invalid => false

def IsLinkLocalUnicast (a : Addr) : Bool :=
  match a.Unmap with
  | v4 x => x >>> 16 = 0xa9fe
  | v6 x _ => x >>> 118 = 0x3fa
  | invalid => false

def IsLinkLocalMulticast (a : Addr) : Bool :=
  match a.Unmap with
  | v4 x => x >>> 8 = 0xe00000
  | v6 x _ => (x >>> 112) &&& 0xff0f = 0xff02
  | invalid => false

def IsInterfaceLocalMulticast : Addr → Bool
  | v6 x _ => (x >>> 112) &&& 0xff0f = 0xff01
  | _ => false

def IsMulticast (a : Addr) : Bool :=
  match a.Unmap with
  | v4 x => x >>> 28 = 14
  | v6 x _ => x >>> 120 = 0xff
  | invalid => false

def IsGlobalUnicast (a : Addr) : Bool :=
  match a.Unmap with
  | invalid => false
  | v4 x => !(x = 0 || x = BitVec.allOnes 32) && !a.IsLoopback && !a.IsMulticast && !a.IsLinkLocalUnicast
  | v6 x zone => !(x = 0 && zone = []) && !a.IsLoopback && !a.IsMulticast && !a.IsLinkLocalUnicast

end Addr

/-- A network: its address and the length of the part that counts. -/
structure Network where
  addr : Addr
  bits : Nat
  deriving DecidableEq, Repr

/-- `Prefix.Contains`: neither across the versions, nor an address with a zone. -/
def Network.Contains (p : Network) : Addr → Bool
  | .v4 x =>
    match p.addr with
    | .v4 y => x >>> (32 - p.bits) = y >>> (32 - p.bits)
    | _ => false
  | .v6 x zone =>
    match p.addr with
    | .v6 y _ => zone = [] ∧ x >>> (128 - p.bits) = y >>> (128 - p.bits)
    | _ => false
  | .invalid => false

end EmailVerifier.Data
