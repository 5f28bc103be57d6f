import TcpUv.Proof.Candidates

/-!
# Ports

A port is an `int` wherever it is written and compared: in the key of a candidate, and where
`tryOutConnection` looks for the node itself. Where it is dialled, `uv_ip4_addr` takes its low
16 bits (`tcpPort`). Neither `OPEER` nor a handshake has its port checked, so a port out of
range is a candidate of its own that dials where another one does, the node's own socket
included.

The result is that ports out of range are all there is to it: along every run whose messages,
`-peer`s and listening sockets have TCP ports, the texts are as good as the numbers
(`PortsSound`).
-/

set_option autoImplicit false

namespace TcpUv

open Lib NodeApp

/-- The TCP port `uv_ip4_addr` makes of a port. -/
def tcpPort (port : Int32) : Int := port.toInt % 65536

/-- A TCP port one can connect to. -/
def Dialable (port : Int32) : Prop := 1 ≤ port.toInt ∧ port.toInt ≤ 65535

instance (port : Int32) : Decidable (Dialable port) := inferInstanceAs (Decidable (_ ∧ _))

/-- The candidates can be dialled, no two of them dial the same socket, and one that would dial
    this node's own is excluded, under every loopback name. -/
structure PortsSound (uv : Uv) (w : NodeWorld) : Prop where
  dialable : ∀ key i, w.app.myPeerCands.find? key = some i → Dialable i.myPort
  distinct : ∀ key key' i i', w.app.myPeerCands.find? key = some i →
    w.app.myPeerCands.find? key' = some i' → i.myHost = i'.myHost →
    tcpPort i.myPort = tcpPort i'.myPort → key = key'
  excluded : ∀ key i port, w.app.myPeerCands.find? key = some i → i.myHost ∈ loopbackHosts →
    w.app.myName = ':' :: stdToString port.toInt → tcpPort i.myPort = tcpPort port →
    ∀ w' : NodeWorld, w'.app.myName = w.app.myName →
      tryOutConnection uv i.myHost i.myPort w' = (w', 0)

/-! ## What an event brings -/

/-- The `-peer`s of the start parameters have TCP ports. -/
def PeersDialable (_ : Candidates) (params : AppParams) : Prop :=
  ∀ p ∈ params.extraPeers.filter fun p => 0 < p.length, Dialable (Endpoint.ofString p).myPort

instance (t : Candidates) (params : AppParams) : Decidable (PeersDialable t params) :=
  inferInstanceAs (Decidable (∀ p ∈ params.extraPeers.filter fun p => 0 < p.length,
    Dialable (Endpoint.ofString p).myPort))

/-- What the event adds and where it listens has TCP ports. -/
def NodeEvent.InRange (uv : Uv) (w : NodeWorld) (e : NodeEvent) : Prop :=
  e.Adds uv (fun _ _ port => Dialable port) PeersDialable w ∧
    ∀ port ∈ e.listensOn uv, Dialable port

instance (uv : Uv) (w : NodeWorld) (e : NodeEvent) : Decidable (e.InRange uv w) :=
  -- not by going through all ports there are
  have : Decidable (∀ port ∈ e.listensOn uv, Dialable port) := Option.decidableForallMem _
  inferInstanceAs (Decidable (_ ∧ _))

/-! ## The table and the name -/

section

variable {uv : Uv} {w : NodeWorld}

/-- All candidates have TCP ports. -/
def AllDialable (t : Candidates) : Prop := ∀ key i, t.find? key = some i → Dialable i.myPort

theorem AllDialable.modify {t : Candidates} (h : AllDialable t) (k : Str)
    {f : PeerCandidateInfo → PeerCandidateInfo} (hf : ∀ i, (f i).myPort = i.myPort) :
    AllDialable (t.modify k f) := by
  intro key i hi
  rw [SortedMap.find?_modify] at hi
  split at hi
  · obtain ⟨i₀, hi₀, rfl⟩ := Option.map_eq_some_iff.mp hi
    rw [hf]
    exact h key i₀ hi₀
  · exact h key i hi

theorem AllDialable.addOutPeerCandidate {a : NodeApp} (h : AllDialable a.myPeerCands) {host : Str}
    {port : Int32} (hport : Dialable port) (toTry : Int) :
    AllDialable (a.addOutPeerCandidate host port toTry).myPeerCands := by
  intro key i hi
  by_cases hk : key = endpointText host port
  · subst hk
    rw [find?_addOutPeerCandidate_self, Option.some.injEq] at hi
    subst hi
    split
    · rename_i pc hpc
      exact h _ pc hpc
    · exact hport
  · rw [find?_addOutPeerCandidate_ne a hk] at hi
    exact h key i hi

theorem candsInvariant_dialable :
    CandsInvariant (fun _ _ port => Dialable port) PeersDialable AllDialable where
  tried k h := h.modify k fun _ => rfl
  connected k h := h.modify k fun _ => rfl
  message hport h := h.addOutPeerCandidate hport 1
  started {a params} hpeers h := by
    have hlocal : ∀ (port : Int32), Dialable port → ∀ {a : NodeApp}, AllDialable a.myPeerCands →
        AllDialable (a.addOutPeerCandidate textLocalhost port 1).myPeerCands :=
      fun _ hport _ h => h.addOutPeerCandidate hport 1
    exact extraPeers_preserve (I := fun a => AllDialable a.myPeerCands)
      (fun p hp a h => h.addOutPeerCandidate (hpeers p hp) 1000000)
      (hlocal 5001 (by decide) (hlocal 5000 (by decide) h))

/-- The node has no name yet, or that of a TCP port. -/
def NameDialable (w : NodeWorld) : Prop :=
  w.app.myName = [] ∨ ∃ port : Int32, Dialable port ∧ w.app.myName = ':' :: stdToString port.toInt

theorem nameDialable_step {e : NodeEvent} (he : ∀ port ∈ e.listensOn uv, Dialable port)
    (h : NameDialable w) : NameDialable (nodeStep uv w e) := by
  have hname := name_nodeStep uv w e
  unfold NameDialable
  rw [hname]
  cases hport : e.listensOn uv with
  | none => exact h
  | some port => exact Or.inr ⟨port, he port hport, rfl⟩

/-! ## Numbers and texts -/

/-- On ports one can connect to, nothing is lost by cutting to 16 bits. -/
theorem tcpPort_injective {p q : Int32} (hp : Dialable p) (hq : Dialable q)
    (h : tcpPort p = tcpPort q) : p = q := by
  unfold tcpPort at h
  obtain ⟨hp₁, hp₂⟩ := hp
  obtain ⟨hq₁, hq₂⟩ := hq
  refine Int32.toInt_inj.mp ?_
  rw [Int.emod_eq_of_lt (by omega) (by omega), Int.emod_eq_of_lt (by omega) (by omega)] at h
  exact h

theorem PortsSound.of_dialable (htables : PeerTables w) (hcands : AllDialable w.app.myPeerCands)
    (hname : NameDialable w) : PortsSound uv w := by
  refine ⟨hcands, fun key key' i i' hi hi' hhost hport => ?_,
    fun key i port hi hhost hnamed hport w' hw' => ?_⟩
  · rw [htables.key key i hi, htables.key key' i' hi', hhost,
      tcpPort_injective (hcands key i hi) (hcands key' i' hi') hport]
  · have hown : Dialable port := by
      rcases hname with hname | ⟨port', hport', hname⟩
      · rw [hname] at hnamed
        cases hnamed
      · rw [hname, List.cons.injEq] at hnamed
        rw [← stdToString_injective hnamed.2]
        exact hport'
    obtain rfl : i.myPort = port := tcpPort_injective (hcands key i hi) hown hport
    unfold tryOutConnection
    exact if_pos ⟨by rw [hw', hnamed], hhost⟩

/-- **Ports.** In every state of a run whose messages, `-peer`s and listening sockets have TCP
    ports. -/
theorem ports_sound {es : List NodeEvent} (hv : (nodeSystem uv).Valid NodeWorld.init es)
    (hrange : (nodeSystem uv).Along (fun w e => e.InRange uv w) NodeWorld.init es) :
    PortsSound uv ((nodeSystem uv).run NodeWorld.init es) := by
  have hinit : AllDialable NodeWorld.init.app.myPeerCands := fun _ _ hi => by cases hi
  have hall := Lib.System.run_invariant_along
    (I := fun w => AllDialable w.app.myPeerCands ∧ NameDialable w)
    (fun w e h _ he => ⟨candsInvariant_dialable.step uv he.1 h.1, nameDialable_step he.2 h.2⟩)
    ⟨hinit, Or.inl rfl⟩ hv hrange
  exact .of_dialable (peerTables_reachable ⟨es, hv, rfl⟩) hall.1 hall.2

end

/-- A node on port 5000 to which a peer connects, and what the peer sends. -/
def hears (bytes : Str) : List NodeEvent :=
  [.start { listenPort := 5000, listenPortRange := 5 }, .newConnection 0 0,
    .client 1 (.read bytes.length (some bytes))]

/-- The highest port there is. -/
theorem ports_sound_highest : PortsSound Uv.cooperative
    ((nodeSystem Uv.cooperative).run NodeWorld.init (hears "OPEER 10.0.0.9 65535\n".toList)) :=
  ports_sound (by decide) (by decide)

/-- `70536` is `5000` in 16 bits: a candidate no socket can have, a second one for the socket of
    `localhost:5000`, and a connection of the node to itself. -/
theorem ports_wrapped :
    let w := (nodeSystem Uv.cooperative).run NodeWorld.init (hears "OPEER localhost 70536\n".toList)
    (nodeSystem Uv.cooperative).Valid NodeWorld.init (hears "OPEER localhost 70536\n".toList) ∧
    w.app.myName = ":5000".toList ∧
    (w.app.myPeerCands.find? "localhost:70536".toList).map (fun i => i.myPort) = some 70536 ∧
    (w.app.myPeerCands.find? "localhost:5000".toList).map (fun i => i.myPort) = some 5000 ∧
    tcpPort 70536 = tcpPort 5000 ∧
    ((w.clients 2).kind, (w.clients 2).myHost, (w.clients 2).myPort,
      (w.clients 2).acts.count .connectCall) = (.peerClientOut, "localhost".toList, 70536, 1) ∧
    ¬ PortsSound Uv.cooperative w := by
  refine ⟨by decide, by decide, by decide, by decide, by decide, by decide, fun h => ?_⟩
  exact absurd (h.dialable "localhost:70536".toList ⟨textLocalhost, 70536, 1, 1, 1⟩ (by decide))
    (by decide)

end TcpUv
