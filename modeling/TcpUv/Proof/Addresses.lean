import TcpUv.Proof.ServerReplies

/-!
# Addresses as text

An endpoint travels as text: through the keys of the candidate table, the handshake and the
gossip. `Endpoint` reads back what it writes, and everything it reads is a normal form of
that reading (`endpoint_normal_form`), so that a text does not drift on its way.

What the text of a remote end says is another matter. `getRemoteAddressHostPort` widens
`sin_port` as it is stored, in network byte order; on a little-endian host the port comes
out with its two bytes exchanged, in the address a server or a node stores and in the one it
tells the client (`reported_iff`).
-/

set_option autoImplicit false

namespace TcpUv

open Lib

/-! ## Endpoints and their texts -/

/-- **The text of an endpoint is a faithful normal form**: an endpoint whose host has no colon
    reads back, and what any text at all reads as reads back. -/
theorem endpoint_normal_form :
    (∀ (host : Str) (port : Int32), ':' ∉ host →
      Endpoint.ofString (Endpoint.getEndpoint ⟨host, port⟩) = ⟨host, port⟩) ∧
    ∀ s : Str, Endpoint.ofString (Endpoint.ofString s).getEndpoint = Endpoint.ofString s :=
  ⟨fun _ port hhost => Endpoint.ofString_endpointText hhost port,
    fun s => Endpoint.ofString_endpointText (Endpoint.ofString_no_colon s) _⟩

/-- A negative port, with a host and without one. -/
theorem endpoint_normal_form_negative :
    Endpoint.ofString (Endpoint.getEndpoint ⟨"10.0.0.1".toList, -501⟩) =
        ⟨"10.0.0.1".toList, -501⟩ ∧
      Endpoint.ofString (Endpoint.getEndpoint ⟨[], -1⟩) = ⟨[], -1⟩ :=
  ⟨endpoint_normal_form.1 "10.0.0.1".toList (-501) (by decide),
    endpoint_normal_form.1 [] (-1) (by decide)⟩

/-! ## The other end of a connection -/

/-- A port as `sin_port` stores it, the high byte first. -/
def networkPort (port : UInt16) : UInt8 × UInt8 :=
  (UInt8.ofNat (port.toNat / 256), UInt8.ofNat (port.toNat % 256))

/-- What `getpeername` finds at an IPv4 socket whose other end has this address and port. -/
def PeerName.ofIPv4 (a b c d : UInt8) (port : UInt16) : PeerName :=
  .inet a b c d (networkPort port)

/-- The endpoint at the other end. -/
def remoteEndpoint (a b c d : UInt8) (port : UInt16) : Endpoint :=
  ⟨dottedText a b c d, Int32.ofNat port.toNat⟩

/-- **The host's reading of the port** is the port on a big-endian host, and where its bytes
    are equal. -/
theorem hostUInt16_networkPort (bigEndian : Bool) (port : UInt16) :
    hostUInt16 bigEndian (networkPort port) = Int32.ofNat port.toNat ↔
      bigEndian = true ∨ port.toNat / 256 = port.toNat % 256 := by
  have hlt := port.toNat_lt
  have hhigh : (networkPort port).1.toNat = port.toNat / 256 :=
    UInt8.toNat_ofNat_of_lt' (by simp [UInt8.size]; omega)
  have hlow : (networkPort port).2.toNat = port.toNat % 256 :=
    UInt8.toNat_ofNat_of_lt' (by simp [UInt8.size]; omega)
  unfold hostUInt16
  rw [hhigh, hlow]
  cases bigEndian with
  | true =>
    have hsplit : 256 * (port.toNat / 256) + port.toNat % 256 = port.toNat := by omega
    simp [hsplit]
  | false =>
    rw [if_neg (by simp), ← Int32.toInt_inj, Int32.toInt_ofNat_of_lt (by omega),
      Int32.toInt_ofNat_of_lt (by omega)]
    simp only [Bool.false_eq_true, false_or]
    omega

theorem ofString_getRemoteAddress (uv : Uv) (a b c d : UInt8) (port : UInt16) :
    Endpoint.ofString (getRemoteAddress uv (.ofIPv4 a b c d port)) =
      ⟨dottedText a b c d, hostUInt16 uv.bigEndian (networkPort port)⟩ :=
  Endpoint.ofString_endpointText (isHost_dottedText a b c d).2 _

theorem ofString_getRemoteAddress_iff (uv : Uv) (a b c d : UInt8) (port : UInt16) :
    Endpoint.ofString (getRemoteAddress uv (.ofIPv4 a b c d port)) = remoteEndpoint a b c d port ↔
      uv.bigEndian = true ∨ port.toNat / 256 = port.toNat % 256 := by
  rw [ofString_getRemoteAddress, remoteEndpoint, Endpoint.mk.injEq,
    ← hostUInt16_networkPort uv.bigEndian port]
  exact ⟨fun h => h.2, fun h => ⟨rfl, h⟩⟩

/-! ## What the server stores and tells -/

/-- The address a connection was accepted from, in the server's tables and in its answers. -/
structure Reports (uv : Uv) (w : World ServerApp) : Prop where
  stored : ∀ c < w.next,
    (w.clients c).myPeerAddr = getRemoteAddress uv (uv.getpeername c 1)
  told : ∀ c, ∀ v my your, .handshakeResponse v my your ∈ (w.clients c).sent →
    your = getRemoteAddress uv (uv.getpeername c 1)

section

variable {uv : Uv} {s : ServerRun}

theorem ServerMove.stored {w' : World ServerApp} {e : ServerEvent} (hm : ServerMove uv s w' e)
    (h : Reports uv s.world) : ∀ c < w'.next,
      (w'.clients c).myPeerAddr = getRemoteAddress uv (uv.getpeername c 1) := by
  intro d hd
  cases hm with
  | aside _ hclients _ hnext =>
    rw [hclients]
    exact h.stored d (hnext ▸ hd)
  | accepted hclients _ hnext =>
    rw [hnext] at hd
    rw [hclients]
    split
    · rename_i heq
      rw [(ServerApp.idle_newcomer uv _).myPeerAddr, heq]
      rfl
    · rename_i hne
      have hlt := Nat.lt_of_le_of_ne (Nat.lt_succ_iff.mp hd) hne
      split
      · exact h.stored d hlt
      · exact h.stored d hlt
  | served _ _ _ hclients _ hnext =>
    rw [hnext] at hd
    rw [hclients]
    split
    · rename_i heq
      rw [Client.myPeerAddr_serve, ← heq]
      exact h.stored d hd
    · exact h.stored d hd
  | closed _ _ hclients _ hnext =>
    rw [hnext] at hd
    rw [hclients]
    split
    · rename_i heq
      rw [Client.myPeerAddr_retire, ← heq]
      exact h.stored d hd
    · exact h.stored d hd

/-- **One event**: a response carries the address of the connection it is sent on. -/
theorem reports_step (hs : ServerSane s.world) (h : Reports uv s.world) {e : ServerEvent}
    (ha : (serverSystem uv).allowed s e) : Reports uv ((serverSystem uv).step s e).world := by
  have hm := serverStep_move hs ha
  refine ⟨hm.stored h, fun d v my your hmem => ?_⟩
  change .handshakeResponse v my your ∈ ((serverStep uv s e).world.clients d).sent at hmem
  rcases hm.sent with ⟨-, hsent⟩ | ⟨c, cb, -, hc, hself, hothers⟩
  · rcases hsent d with hsame | hnone
    · exact h.told d v my your (hsame ▸ hmem)
    · rw [hnone] at hmem
      cases hmem
  · by_cases hd : d = c
    · subst hd
      rw [hself] at hmem
      rcases List.mem_append.mp hmem with hold | hnew
      · exact h.told d v my your hold
      · obtain ⟨m, -, hanswer⟩ := List.mem_filterMap.mp hnew
        cases m with
        | handshake v' y' a' =>
          rw [ServerApp.answer] at hanswer
          split at hanswer
          · obtain ⟨-, -, rfl⟩ := Message.handshakeResponse.inj (Option.some.inj hanswer)
            exact h.stored d hc
          · cases hanswer
        | _ => cases hanswer
    · rw [hothers d hd] at hmem
      exact h.told d v my your hmem

theorem reports_run {es : List ServerEvent} (hv : (serverSystem uv).Valid ServerRun.init es) :
    Reports uv ((serverSystem uv).run ServerRun.init es).world :=
  (System.run_invariant (I := fun s => ServerSane s.world ∧ Reports uv s.world)
    (fun s e h ha => ⟨serverSane_step s e h.1 ha, reports_step h.1 h.2 ha⟩)
    ⟨serverSane_init, fun _ hc => absurd hc (Nat.not_lt_zero _), fun _ _ _ _ hm => by cases hm⟩
    hv).2

end

/-! ## What a node stores and tells -/

/-- An accepted connection keeps the address it was accepted from, and what is told in a response is
    the address of the connection it is sent on. -/
structure KeepsAddress (uv : Uv) (c : ClientId) (k : Client) : Prop where
  stored : k.kind = .netClientIn → k.myPeerAddr = getRemoteAddress uv (uv.getpeername c 1)
  told : ∀ v my your, .handshakeResponse v my your ∈ k.sent → your = k.myPeerAddr

namespace KeepsAddress

variable {uv : Uv} {c : ClientId} {k k' : Client}

theorem quiet (hq : k.Quiet k') (h : KeepsAddress uv c k) : KeepsAddress uv c k' where
  stored hk := hq.myPeerAddr.trans (h.stored (hq.kind.symm.trans hk))
  told v my your hm := (h.told v my your (hq.sent ▸ hm)).trans hq.myPeerAddr.symm

/-- A message other than a response, or a response with the address. -/
theorem send {m : Message} (hm : ∀ v my your, m = .handshakeResponse v my your →
    your = k.myPeerAddr) (h : KeepsAddress uv c k) :
    KeepsAddress uv c (k.log (.sendMessage m)) where
  stored := h.stored
  told v my your hsent := by
    rw [Client.sent_log] at hsent
    rcases List.mem_append.mp hsent with hold | hnew
    · exact h.told v my your hold
    · exact hm v my your (List.mem_singleton.mp hnew).symm

theorem handOver (m : Message) (h : KeepsAddress uv c k) : KeepsAddress uv c (k.handOver m) where
  stored := h.stored
  told v my your hsent := by
    refine h.told v my your ?_
    simpa [Client.sent, Client.handOver, Client.log, Client.setState, Act.sentMessage] using hsent

end KeepsAddress

/-- … on every connection of a node. -/
def KeepsAddresses (uv : Uv) (w : NodeWorld) : Prop :=
  ∀ c < w.next, KeepsAddress uv c (w.clients c)

namespace KeepsAddresses

variable {uv : Uv} {w : NodeWorld}

theorem modify {c : ClientId} {f : Client → Client}
    (hf : KeepsAddress uv c (w.clients c) → KeepsAddress uv c (f (w.clients c)))
    (h : KeepsAddresses uv w) : KeepsAddresses uv (w.modify c f) := by
  intro d hd
  rw [World.clients_modify]
  split
  · subst d
    exact hf (h c hd)
  · exact h d hd

theorem connectionClosed (c : ClientId) (h : KeepsAddresses uv w) :
    KeepsAddresses uv (NodeApp.connectionClosed c w) := by
  obtain ⟨hq, hnext, -, -⟩ := NodeApp.connectionClosed_spec c w
  intro d hd
  exact (h d (hnext ▸ hd)).quiet (hq d)

theorem tryCandidate (key : Str) (h : KeepsAddresses uv w) :
    KeepsAddresses uv (NodeApp.tryCandidate uv w key) := by
  intro d hd
  by_cases hold : d < w.next
  · rw [NodeApp.clients_tryCandidate uv hold]
    exact h d hold
  · -- an outgoing client, which has not sent anything
    obtain ⟨i, w', hnew, hclient⟩ := NodeApp.tryCandidate_new uv hold hd
    rw [hclient]
    refine KeepsAddress.quiet (NodeApp.quiet_connect uv d w') ?_
    rw [hnew]
    exact ⟨(fun hk => nomatch hk), fun _ _ _ hm => nomatch hm⟩

theorem accepted (h : KeepsAddresses uv w) :
    KeepsAddresses uv (NodeApp.inConnectionReceived w.next
      (w.create (NetClientIn.new (getRemoteAddress uv (uv.getpeername w.next 1))))) := by
  intro d hd
  rcases Nat.lt_succ_iff_lt_or_eq.mp hd with hlt | rfl
  · exact (World.clients_create_ne w _ (Nat.ne_of_lt hlt)).symm ▸ h d hlt
  · exact (World.clients_create_next w _).symm ▸ ⟨fun _ => rfl, fun _ _ _ hm => nomatch hm⟩

theorem nodeInvariant (uv : Uv) :
    NodeInvariant uv (fun _ => True) (fun w => KeepsAddresses uv w) where
  quiet _ hf h := h.modify fun hk => hk.quiet (hf _)
  connectionClosed _ h := h.connectionClosed _
  greets _ hm h := h.modify fun hk => hk.send fun v my your he => by
    rcases hm with rfl | ⟨n, rfl⟩ <;> cases he
  handshakeResponse _ h := h.modify fun hk => hk.send fun v my your he => by
    cases he
    rfl
  pingResponse _ _ h := h.modify fun hk => hk.send fun v my your he => nomatch he
  otherPeer _ _ _ h := h.modify fun hk => hk.send fun v my your he => nomatch he
  canonical _ _ _ _ _ h := h.modify fun hk => ⟨hk.stored, hk.told⟩
  canonicalCandidate _ _ _ _ h := h
  candidate _ h := h
  tryCandidate _ h := h.tryCandidate _
  connected _ h _ := h.modify fun hk => ⟨hk.stored, hk.told⟩
  buffer _ _ h := h.modify fun hk => ⟨hk.stored, hk.told⟩
  handed _ _ h := h.modify fun hk => hk.handOver _
  accepted _ h := h.accepted
  named _ _ h := h
  net _ h := h
  terminated _ h := h
  started _ h := h

theorem run {es : List NodeEvent} (hv : (nodeSystem uv).Valid NodeWorld.init es) :
    KeepsAddresses uv ((nodeSystem uv).run NodeWorld.init es) :=
  (nodeInvariant uv).run hv (fun e _ => by cases e <;> trivial)
    fun _ hc => absurd hc (Nat.not_lt_zero _)

end KeepsAddresses

/-! ## The reported address -/

/-- **The reported address is the real one** exactly on a big-endian host, or where the two
    bytes of the port are equal: as `getRemoteAddress` gives it, as a server stores it and
    tells it in a handshake response, and as a node does for the connections it accepted. -/
theorem reported_iff (uv : Uv) (a b c d : UInt8) (port : UInt16) :
    (Endpoint.ofString (getRemoteAddress uv (.ofIPv4 a b c d port)) =
        remoteEndpoint a b c d port ↔
      uv.bigEndian = true ∨ port.toNat / 256 = port.toNat % 256) ∧
    (∀ es, (serverSystem uv).Valid ServerRun.init es →
      ∀ k < ((serverSystem uv).run ServerRun.init es).world.next,
      uv.getpeername k 1 = .ofIPv4 a b c d port →
      (Endpoint.ofString
          (((serverSystem uv).run ServerRun.init es).world.clients k).myPeerAddr =
            remoteEndpoint a b c d port ↔
        uv.bigEndian = true ∨ port.toNat / 256 = port.toNat % 256) ∧
      ∀ v my your, .handshakeResponse v my your ∈
          (((serverSystem uv).run ServerRun.init es).world.clients k).sent →
        (Endpoint.ofString your = remoteEndpoint a b c d port ↔
          uv.bigEndian = true ∨ port.toNat / 256 = port.toNat % 256)) ∧
    ∀ es, (nodeSystem uv).Valid NodeWorld.init es →
      ∀ k < ((nodeSystem uv).run NodeWorld.init es).next,
      (((nodeSystem uv).run NodeWorld.init es).clients k).kind = .netClientIn →
      uv.getpeername k 1 = .ofIPv4 a b c d port →
      (Endpoint.ofString (((nodeSystem uv).run NodeWorld.init es).clients k).myPeerAddr =
            remoteEndpoint a b c d port ↔
        uv.bigEndian = true ∨ port.toNat / 256 = port.toNat % 256) ∧
      ∀ v my your, .handshakeResponse v my your ∈
          (((nodeSystem uv).run NodeWorld.init es).clients k).sent →
        (Endpoint.ofString your = remoteEndpoint a b c d port ↔
          uv.bigEndian = true ∨ port.toNat / 256 = port.toNat % 256) := by
  refine ⟨ofString_getRemoteAddress_iff uv a b c d port, fun es hv k hk hname => ⟨?_, ?_⟩,
    fun es hv k hk hkind hname => ⟨?_, ?_⟩⟩
  · rw [(reports_run hv).stored k hk, hname]
    exact ofString_getRemoteAddress_iff uv a b c d port
  · intro v my your hmem
    rw [(reports_run hv).told k v my your hmem, hname]
    exact ofString_getRemoteAddress_iff uv a b c d port
  · rw [(KeepsAddresses.run hv k hk).stored hkind, hname]
    exact ofString_getRemoteAddress_iff uv a b c d port
  · intro v my your hmem
    rw [(KeepsAddresses.run hv k hk).told v my your hmem,
      (KeepsAddresses.run hv k hk).stored hkind, hname]
    exact ofString_getRemoteAddress_iff uv a b c d port

/-- The host with the other byte order. -/
def Uv.bigEndianHost : Uv := { Uv.cooperative with bigEndian := true }

/-- On a big-endian host a client from port 5001 is told so, by a server and by a node. -/
theorem reported_big_endian : Endpoint.ofString "127.0.0.1:5001".toList =
    remoteEndpoint 127 0 0 1 5001 ∧
    Endpoint.ofString (((nodeSystem Uv.bigEndianHost).run NodeWorld.init
      [.start { listenPort := 5000, listenPortRange := 1 }, .newConnection 0 0]).clients
        1).myPeerAddr = remoteEndpoint 127 0 0 1 5001 := by
  have hv : (serverSystem Uv.bigEndianHost).Valid ServerRun.init
      [.listen { listenPort := 5000, listenPortRange := 1 }, .startUvLoop, .setName,
        .newConnection 0 0, .client 0 (.read 15 (some "HANDSH V01 a b\n".toList))] := by
    decide
  have htold := ((reported_iff Uv.bigEndianHost 127 0 0 1 5001).2.1 _ hv 0 (by decide) rfl).2
    textV01 ":5000".toList "127.0.0.1:5001".toList (by decide)
  have hnode : (nodeSystem Uv.bigEndianHost).Valid NodeWorld.init
      [.start { listenPort := 5000, listenPortRange := 1 }, .newConnection 0 0] := by decide
  have hstored := ((reported_iff Uv.bigEndianHost 127 0 0 1 5001).2.2 _ hnode 1 (by decide)
    (by decide) rfl).1
  exact ⟨htold.mpr (Or.inl rfl), hstored.mpr (Or.inl rfl)⟩

/-- On a little-endian host a client from port 5001 is told 35091. -/
theorem reported_swapped :
    getRemoteAddress Uv.cooperative (.ofIPv4 127 0 0 1 5001) = "127.0.0.1:35091".toList ∧
      Endpoint.ofString (getRemoteAddress Uv.cooperative (.ofIPv4 127 0 0 1 5001)) ≠
        remoteEndpoint 127 0 0 1 5001 := by
  decide

end TcpUv
