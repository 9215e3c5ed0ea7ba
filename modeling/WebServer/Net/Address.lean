import WebServer.Net.Text

/-!
# Addresses and the names of connections

Model of `address/socket_address.cc` and of the name that `TCPServer::acceptorReadCallback` gives a connection.

`inet_ntop` is modelled for every IPv4 address, which the peers of a socket of `AF_INET` have, and for the two
IPv6 addresses that the constructor of `SocketAddress` makes for a host. A name that fits into its buffer is
not cut off (`connectionName_eq`), and so it tells the number of the connection (`connectionName_inj`).
-/

namespace WebServer.Net

/-- `class SocketAddress`; of the IPv6 addresses `in6addr_any` and `in6addr_loopback`. -/
inductive SocketAddress where
  | addr_ (a b c d : UInt8) (sin_port : UInt16)
  | addr6_ (loopback : Bool) (sin6_port : UInt16)
deriving DecidableEq, Repr

namespace SocketAddress

/-- `SocketAddress::SocketAddress` -/
def new (port : UInt16) (loopbackOnly ipv6 : Bool) : SocketAddress :=
  if ipv6 then
    .addr6_ loopbackOnly port
  else if loopbackOnly then
    .addr_ 127 0 0 1 port
  else
    .addr_ 0 0 0 0 port

/-- `g_buf_size` -/
def g_buf_size : Nat := 64

/-- `SocketAddress::toIP`: the text of `inet_ntop`. -/
def toIP : SocketAddress → Bytes
  | .addr_ a b c d _ =>
    numeral a.toNat ++ bytes "." ++ numeral b.toNat ++ bytes "." ++ numeral c.toNat ++ bytes "." ++
      numeral d.toNat
  | .addr6_ loopback _ => if loopback then bytes "::1" else bytes "::"

/-- `SocketAddress::toPort` -/
def toPort : SocketAddress → UInt16
  | .addr_ _ _ _ _ port => port
  | .addr6_ _ port => port

/-- `SocketAddress::toIPPort`: the port is printed behind the address into the rest of the buffer. -/
def toIPPort (addr : SocketAddress) : Bytes :=
  addr.toIP ++ snprintf (g_buf_size - addr.toIP.length) (bytes ":" ++ numeral addr.toPort.toNat)

end SocketAddress

/-- The name that `TCPServer::acceptorReadCallback` prints into `char buff[64]`. -/
def connectionName (peer_addr : SocketAddress) (name : Bytes) (next_conn_id : Nat) : Bytes :=
  snprintf 64 (peer_addr.toIPPort ++ bytes "->" ++ name ++ bytes "-#" ++ numeral next_conn_id)

/-! ## Names -/

namespace SocketAddress

variable {addr : SocketAddress}

/-- A dotted address has at most fifteen characters. -/
lemma toIP_length : addr.toIP.length ≤ 15 := by
  cases addr with
  | addr_ a b c d port =>
    have octet (x : UInt8) : (numeral x.toNat).length ≤ 3 :=
      numeral_length (by decide) (Nat.lt_trans x.toNat_lt (by decide))
    have dot : (bytes ".").length = 1 := by decide
    simp only [toIP, List.length_append, dot]
    have := octet a
    have := octet b
    have := octet c
    have := octet d
    omega
  | addr6_ loopback port =>
    simp only [toIP]
    cases loopback <;> decide

/-- A colon and a port have at most six characters. -/
lemma port_length : (bytes ":" ++ numeral addr.toPort.toNat).length ≤ 6 := by
  have port : (numeral addr.toPort.toNat).length ≤ 5 :=
    numeral_length (by decide) (Nat.lt_trans addr.toPort.toNat_lt (by decide))
  have colon : (bytes ":").length = 1 := by decide
  rw [List.length_append, colon]
  omega

/-- The port fits behind the address. -/
lemma toIPPort_eq : addr.toIPPort = addr.toIP ++ (bytes ":" ++ numeral addr.toPort.toNat) := by
  have := @toIP_length addr
  have := @port_length addr
  rw [toIPPort, snprintf, List.take_of_length_le]
  unfold g_buf_size
  omega

/-- An address with its port has at most 21 characters. -/
lemma toIPPort_length : addr.toIPPort.length ≤ 21 := by
  have := @toIP_length addr
  have := @port_length addr
  rw [toIPPort_eq, List.length_append]
  omega

/-- An address has no number sign, the character that separates it in a name. -/
lemma hash_notMem : char '#' ∉ addr.toIPPort := by
  have num (n : Nat) : char '#' ∉ numeral n := notMem_numeral (by decide)
  have dot : char '#' ∉ bytes "." := by decide
  have colon : char '#' ∉ bytes ":" := by decide
  rw [toIPPort_eq]
  cases addr with
  | addr_ a b c d port => simp [toIP, num, dot, colon]
  | addr6_ loopback port =>
    have ip : char '#' ∉ toIP (.addr6_ loopback port) := by
      simp only [toIP]
      cases loopback <;> decide
    simp [ip, num, colon]

end SocketAddress

variable {peer peer' host : SocketAddress} {id id' : Nat}

/-- The name of a connection fits into its buffer. -/
lemma connectionName_eq (h : id < 2 ^ 31) :
    connectionName peer host.toIPPort id
      = peer.toIPPort ++ bytes "->" ++ host.toIPPort ++ bytes "-#" ++ numeral id := by
  have := @SocketAddress.toIPPort_length peer
  have := @SocketAddress.toIPPort_length host
  have : (numeral id).length ≤ 10 := numeral_length (by decide) (Nat.lt_trans h (by decide))
  have arrow : (bytes "->").length = 2 := by decide
  have sharp : (bytes "-#").length = 2 := by decide
  rw [connectionName, snprintf, List.take_of_length_le]
  simp only [List.length_append, arrow, sharp]
  omega

/-- The names of connections with different numbers differ, whatever their peers are. -/
lemma connectionName_inj (h : id < 2 ^ 31) (h' : id' < 2 ^ 31)
    (e : connectionName peer host.toIPPort id = connectionName peer' host.toIPPort id') : id = id' := by
  -- the number stands behind the only `#`
  have split (x : Bytes) : bytes "-#" ++ x = char '-' :: char '#' :: x := rfl
  have sharp {p : SocketAddress} : char '#' ∉ p.toIPPort ++ bytes "->" ++ host.toIPPort ++ [char '-'] := by
    have arrow : char '#' ∉ bytes "->" := by decide
    have dash : char '#' ∉ [char '-'] := by decide
    simp only [List.mem_append, SocketAddress.hash_notMem, arrow, dash, or_self, not_false_eq_true]
  have whole {p : SocketAddress} {n : Nat} (hn : n < 2 ^ 31) :
      connectionName p host.toIPPort n
        = (p.toIPPort ++ bytes "->" ++ host.toIPPort ++ [char '-']) ++ char '#' :: numeral n := by
    rw [connectionName_eq hn, List.append_assoc _ (bytes "-#"), split]
    simp only [List.append_assoc, List.singleton_append]
  rw [whole h, whole h', List.append_cons_inj_of_notMem sharp (notMem_numeral (by decide))] at e
  exact numeral_inj e.2.2

end WebServer.Net
