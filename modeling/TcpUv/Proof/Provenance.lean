import TcpUv.Proof.Networks

/-!
# Where a network's endpoints come from

Nodes hand endpoints on to each other, and connect to what they are handed. However long a run
and however many nodes the gossip goes through, an endpoint that a node knows, dials or tells was
configured at some node or put together from a host that libuv reported and a port that was
configured or is listened on (`Attested`): `network_provenance`. That is the account of the
network's own run (`Proper.account`), and the contract of the programs carries it.
-/

set_option autoImplicit false

namespace TcpUv

open Lib (isspace)

/-! ## Knowing and vouching -/

/-- What a node has in its table of candidates, connects to or tells. -/
def Program.Knows : (p : Program) → p.Process → Str → Int32 → Prop
  | .node _, w, host, port =>
      (∃ key i, w.app.myPeerCands.find? key = some i ∧ i.myHost = host ∧ i.myPort = port) ∨
      (∃ c < w.next, (w.clients c).kind = .peerClientOut ∧ (w.clients c).myHost = host ∧
        (w.clients c).myPort = port) ∨
      ∃ c < w.next, Message.otherPeer host port ∈ (w.clients c).sent
  | _, _, _, _ => False

section

variable {ι : Type} [DecidableEq ι] (prog : ι → Program)
  (link : ι → ClientId → Option (ι × ClientId)) (es : List (NetworkEvent prog))

/-- A host libuv reports to one of the processes. -/
def SeenHost (host : Str) : Prop :=
  ∃ i c handle, (getRemoteAddressHostPort (prog i).uv ((prog i).uv.getpeername c handle)).1 = host

/-- A port a node listens on. -/
def ListensOn (i : ι) (port : Int32) : Prop := ∃ e ∈ es, e.1 = i ∧ port ∈ (prog e.1).listensOn e.2

/-- An endpoint every node starts with, or one given to a node. -/
def Configured (host : Str) (port : Int32) : Prop :=
  (host = textLocalhost ∧ (port = 5000 ∨ port = 5001)) ∨
    ∃ e ∈ es, ∃ peer ∈ (prog e.1).peers e.2, Endpoint.ofString peer = ⟨host, port⟩

/-- An endpoint somebody vouches for: it was configured, libuv resolved its host, or a peer told
    its port. -/
inductive Attested : Str → Int32 → Prop where
  | configured {host port} : Configured prog es host port → Attested host port
  | resolved {host host' port} : Configured prog es host port → SeenHost prog host' →
      Attested host' port
  | announced {host i port} : SeenHost prog host → ListensOn prog es i port → Attested host port

end

namespace Proper

variable {ι : Type} [DecidableEq ι] {prog : ι → Program}
  {link : ι → ClientId → Option (ι × ClientId)} {es : List (NetworkEvent prog)}

theorem isHost (h : Proper prog link es) {host : Str} (hr : SeenHost prog host) : IsHost host := by
  obtain ⟨i, c, handle, rfl⟩ := hr
  exact remoteHost_ok (prog i).uv (h.ipv4 i c handle)

theorem noSpace (h : Proper prog link es) {host : Str} {port : Int32}
    (hc : Configured prog es host port) : NoSpace host := by
  rcases hc with ⟨rfl, -⟩ | ⟨e, he, peer, hpeer, hend⟩
  · exact Rumours.any.noSpace Rumours.any.builtIn.1
  · have hspace := Endpoint.ofString_noSpace ((h.decent e he).noSpace hpeer)
    rw [hend] at hspace
    exact hspace

/-- The account of a run. -/
def account (h : Proper prog link es) : Rumours where
  host := SeenHost prog
  listened port := ∃ i, ListensOn prog es i port
  known := Attested prog es
  isHost := h.isHost
  noSpace hk := by
    cases hk with
    | configured hc => exact h.noSpace hc
    | resolved _ hr => exact (h.isHost hr).1.2
    | announced hr _ => exact (h.isHost hr).1.2
  resolved hk hr := by
    cases hk with
    | configured hc => exact .resolved hc hr
    -- what a name resolved to is resolved again to a host of the same name
    | resolved hc _ => exact .resolved hc hr
    | announced _ hl => exact .announced hr hl
  announced hr hl := hl.elim fun _ hl => .announced hr hl
  builtIn := ⟨.configured (Or.inl ⟨rfl, Or.inl rfl⟩), .configured (Or.inl ⟨rfl, Or.inr rfl⟩)⟩

/-- Every process keeps to it. -/
theorem accounted (h : Proper prog link es) (i : ι) :
    (prog i).Conduct h.account (ListensOn prog es i) ((networkRun prog link es).node i) :=
  have hcov : ∀ i, h.account.Covers (prog i).uv := fun i c handle => ⟨i, c, handle, rfl⟩
  have hadm : ∀ e ∈ es, (prog e.1).Admits h.account (ListensOn prog es e.1) e.2 := fun e he =>
    (h.decent e he).admits
      (fun peer hpeer => Attested.configured (Or.inr ⟨e, he, peer, hpeer, rfl⟩))
      fun port hport => show ListensOn prog es e.1 port from ⟨e, he, rfl, hport⟩
  have hL : ∀ i port, ListensOn prog es i port → h.account.listened port := fun i _ hl => ⟨i, hl⟩
  ((h.fulfils hL hcov hadm).1 i).conduct

end Proper

/-! ### Two nodes -/

/-- Two nodes … -/
def nodes (_ : Bool) : Program := .node .cooperative

/-- … the first connection of the one joined to the second of the other … -/
def dialledIn : Bool → ClientId → Option (Bool × ClientId)
  | false, 0 => some (true, 1)
  | true, 1 => some (false, 0)
  | _, _ => none

/-- … that shake hands. -/
def gossip : List (NetworkEvent nodes) :=
  [⟨false, NodeEvent.start { listenPort := 5000, listenPortRange := 1 }⟩,
    ⟨true, NodeEvent.start { listenPort := 5001, listenPortRange := 1 }⟩,
    ⟨true, NodeEvent.newConnection 0 0⟩,
    ⟨false, NodeEvent.client 0 (.connected 0)⟩,
    ⟨true, NodeEvent.client 1 (.read 115 (some ("PING Ping_from_:5000_to_localhost:5001_0\n" ++
      "OPEER 127.0.0.1 5001\nHANDSH V01 localhost:5001 :5000\nOPEER 127.0.0.1 5001\n").toList))⟩]

theorem proper_gossip : Proper nodes dialledIn gossip where
  ipv4 _ _ _ := rfl
  valid := by decide +kernel
  decent := by decide
  short := by decide +kernel

section

variable {ι : Type} [DecidableEq ι] {prog : ι → Program}
  {link : ι → ClientId → Option (ι × ClientId)} {es : List (NetworkEvent prog)}

/-- **Gossip makes nothing up**: whatever endpoint a node knows, dials or tells, somebody vouches
    for it, however many nodes it went through. -/
theorem network_provenance (h : Proper prog link es) {i : ι} {host : Str} {port : Int32}
    (hknows : (prog i).Knows ((networkRun prog link es).node i) host port) :
    Attested prog es host port := by
  have haccounted := h.accounted i
  generalize (networkRun prog link es).node i = s at haccounted hknows
  generalize prog i = p at s haccounted hknows
  cases p with
  | client uv => exact absurd hknows id
  | server uv => exact absurd hknows id
  | node uv =>
    obtain ⟨-, hsourced⟩ := haccounted
    -- a candidate, the address of an outgoing connection, or an `OPEER` that was sent
    rcases hknows with ⟨key, i, hi, rfl, rfl⟩ | ⟨c, hc, hkind, rfl, rfl⟩ | ⟨c, hc, hm⟩
    · exact hsourced.cands key i hi
    · exact hsourced.dialled c hc (by rw [hkind]; decide)
    · exact hsourced.sent c _ (Client.mem_sent.mp hm)

theorem network_provenance_gossip : Attested nodes gossip ("127.0.0.1".toList) 5000 :=
  network_provenance proper_gossip (i := true)
    (Or.inl ⟨"127.0.0.1:5000".toList, ⟨"127.0.0.1".toList, 5000, 1, 1, 1⟩, by decide +kernel, rfl,
      rfl⟩)

/-- **A node knows its peers by what they are**: the canonical address of an incoming connection is
    made of the address libuv reported, and of a port that the process at the other end, a node,
    listens on itself. -/
theorem network_canonical (h : Proper prog link es) {i : ι} {uv : Uv} (hi : prog i = .node uv)
    {c : ClientId} (hc : c < (prog i).count ((networkRun prog link es).node i)) :
    let k := (prog i).conn ((networkRun prog link es).node i) c
    k.kind = .netClientIn → k.myCanonPeerAddr ≠ [] →
      ∃ j d port, link i c = some (j, d) ∧ ListensOn prog es j port ∧
        k.myCanonPeerAddr = endpointText (Endpoint.ofString k.myPeerAddr).myHost port := by
  intro k hin hne
  have htold : k.CanonTold := by
    have haccounted := h.accounted i
    change Client.CanonTold ((prog i).conn _ c)
    generalize (networkRun prog link es).node i = s at haccounted hc ⊢
    revert s
    rw [hi]
    exact fun s haccounted hc => haccounted.2.canonTold c hc
  obtain ⟨v, y, port, hgiven, hcanon⟩ := (htold hin).resolve_left hne
  -- the handshake that named the port was said by somebody, who told a port of its own
  obtain ⟨j, d, hlink, hd, m₀, hm₀, hheard⟩ := h.said hc (Client.mem_delivered.mpr hgiven)
  have htells := ((h.accounted j).sayable hd hm₀).told _ hheard
  unfold Rumours.Told at htells
  obtain ⟨port', hport, hsame⟩ := htells rfl
  rw [stdToString_injective (List.cons.inj hsame).2] at hcanon
  exact ⟨j, d, port', hlink, hport, hcanon⟩

theorem network_canonical_gossip : ∃ j d port, dialledIn true 1 = some (j, d) ∧
    ListensOn nodes gossip j port ∧
      ((nodes true).conn ((networkRun nodes dialledIn gossip).node true) 1).myCanonPeerAddr =
        endpointText (Endpoint.ofString ((nodes true).conn
          ((networkRun nodes dialledIn gossip).node true) 1).myPeerAddr).myHost port :=
  network_canonical proper_gossip (i := true) rfl (c := 1) (by decide +kernel) (by decide +kernel)
    (by decide +kernel)

end

end TcpUv
