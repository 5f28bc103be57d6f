import TcpUv.World

/-!
# The other end of a socket — `NetHandler::getRemoteAddress…`

The address of a connection's remote end, as `lib/net_handler.cpp` computes it: the
dotted text `uv_inet_ntop` writes, or `"?"` when the name cannot be read, and the port
field read as the host's own 16-bit integer. No byte order conversion is made.

What the rest of the development needs to know of it is that, over IPv4, the host part
is a word without a colon (`remoteHost_ok`) — the fallback included.
-/

set_option autoImplicit false

namespace TcpUv

open Lib

/-- `uv_inet_ntop(AF_INET, …)`. -/
def dottedText (a b c d : UInt8) : Str :=
  stdToString a.toNat ++ '.' :: (stdToString b.toNat ++ '.' ::
    (stdToString c.toNat ++ '.' :: stdToString d.toNat))

/-- Two stored bytes read as a `uint16_t` of the host, widened to `int`. -/
def hostUInt16 (bigEndian : Bool) (stored : UInt8 × UInt8) : Int32 :=
  if bigEndian then Int32.ofNat (256 * stored.1.toNat + stored.2.toNat)
  else Int32.ofNat (256 * stored.2.toNat + stored.1.toNat)

/-- `getRemoteAddressHostPort(socket, host_out, port_out)`. -/
def getRemoteAddressHostPort (uv : Uv) (name : PeerName) : Str × Int32 :=
  match name with
  | .error _ => (['?'], 0)
  | .inet a b c d sinPort => (dottedText a b c d, hostUInt16 uv.bigEndian sinPort)
  | .inet6 text sin6Port => (text, hostUInt16 uv.bigEndian sin6Port)
  | .other => (['?'], 0)

/-- `getRemoteAddress(socket)`: `host:port`. -/
def getRemoteAddress (uv : Uv) (name : PeerName) : Str :=
  let (host, port) := getRemoteAddressHostPort uv name
  host ++ ':' :: stdToString port.toInt

/-- The peer names an IPv4 socket can have. -/
def PeerName.isIPv4 : PeerName → Bool
  | .inet6 _ _ => false
  | _ => true

/-- Every socket of the process is an IPv4 socket: it listens on `0.0.0.0` and connects
    through `uv_ip4_addr`. -/
def Uv.IPv4 (uv : Uv) : Prop := ∀ c h, (uv.getpeername c h).isIPv4 = true

/-- A host text that can stand before the colon of an endpoint. -/
def IsHost (h : Str) : Prop := IsWord h ∧ ':' ∉ h

theorem isHost_dottedText (a b c d : UInt8) : IsHost (dottedText a b c d) := by
  have hsp : ∀ n : UInt8, ∀ ch ∈ stdToString (n.toNat : Int), isspace ch = false :=
    fun n => (isWord_stdToString _).2
  have hdot : ∀ {s : Str}, (∀ ch ∈ s, isspace ch = false) →
      ∀ ch ∈ '.' :: s, isspace ch = false := by
    intro s hs ch hch
    rcases List.mem_cons.mp hch with rfl | h
    · decide
    · exact hs ch h
  have happ : ∀ {s t : Str}, (∀ ch ∈ s, isspace ch = false) → (∀ ch ∈ t, isspace ch = false) →
      ∀ ch ∈ s ++ t, isspace ch = false := by
    intro s t hs ht ch hch
    rcases List.mem_append.mp hch with h | h
    · exact hs ch h
    · exact ht ch h
  refine ⟨(isWord_stdToString _).append
    (hdot (happ (hsp b) (hdot (happ (hsp c) (hdot (hsp d)))))), ?_⟩
  have hcol : ∀ n : UInt8, ':' ∉ stdToString (n.toNat : Int) := fun n => stdToString_no_colon _
  simp [dottedText, hcol]

/-- The fallback host. -/
theorem isHost_unknown : IsHost ['?'] := ⟨by decide, by decide⟩

/-- **Over IPv4 the host part is a word without a colon**, fallback included. -/
theorem remoteHost_ok (uv : Uv) {name : PeerName} (h : name.isIPv4 = true) :
    IsHost (getRemoteAddressHostPort uv name).1 := by
  cases name with
  | error res => exact isHost_unknown
  | inet a b c d sinPort => exact isHost_dottedText a b c d
  | inet6 text sin6Port => exact absurd h (by simp [PeerName.isIPv4])
  | other => exact isHost_unknown

end TcpUv
