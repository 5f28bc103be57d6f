import TcpUv.Proof.NodeWire

/-!
# Gossip

What one call of `sendOtherPeers` tells a connection (`told`), read off the messages it
adds to the history. The list comes from `getConnectedPeers`: the *canonical* addresses of
*all* connected peers, incoming ones too, each read back through `Endpoint`. The one
endpoint left out is the *peer address* of the connection told.

Two things asked of gossip fail on that: that a peer is never told about itself
(`told_itself_iff`), and that it is told exactly the connected outgoing peers
(`told_complete_iff`). Each theorem says for which states of the tables the code does it.
-/

set_option autoImplicit false

namespace TcpUv

open Lib NodeApp

/-- The endpoint a message tells of. -/
def Act.toldOf : Act → Option Str
  | .sendMessage (.otherPeer host port) => some (endpointText host port)
  | _ => none

/-- The endpoints one call of `sendOtherPeers` tells the connection, in order. -/
def told (uv : Uv) (c : ClientId) (w : NodeWorld) : List Str :=
  (((sendOtherPeers uv c w).clients c).acts.drop (w.clients c).acts.length).filterMap Act.toldOf

/-! ## The list -/

/-- A canonical address as the gossip spells it: read back through `Endpoint`. -/
def readBack (a : Str) : Str := (Endpoint.ofString a).getEndpoint

/-- The canonical addresses of the connected peers, whatever their direction. -/
def connectedCanons (uv : Uv) (w : NodeWorld) : List Str :=
  w.app.myPeers.filterMap (connectedCanon uv w)

/-- The keys of the map in `getConnectedPeers`: the same addresses, once each, in order. -/
def gossipKeys (uv : Uv) (w : NodeWorld) : List Str :=
  ((connectedCanons uv w).foldl (fun (m : SortedMap Str Unit) k => m.insert k ()) .empty).keys

theorem mem_gossipKeys {uv : Uv} {w : NodeWorld} {a : Str} :
    a ∈ gossipKeys uv w ↔ a ∈ connectedCanons uv w := by
  unfold gossipKeys
  rw [SortedMap.mem_keys_collect]
  simp

/-- What the loop would send if nothing stopped it, before its own test. -/
def gossipTexts (uv : Uv) (w : NodeWorld) : List Str := (gossipKeys uv w).map readBack

theorem map_getConnectedPeers (uv : Uv) (w : NodeWorld) :
    (getConnectedPeers uv w).map Endpoint.getEndpoint = gossipTexts uv w := by
  show ((gossipKeys uv w).map Endpoint.ofString).map Endpoint.getEndpoint = _
  rw [List.map_map]
  rfl

theorem mem_gossipTexts {uv : Uv} {w : NodeWorld} {a : Str} :
    a ∈ gossipTexts uv w ↔ ∃ b ∈ connectedCanons uv w, readBack b = a := by
  unfold gossipTexts
  rw [List.mem_map]
  exact exists_congr fun b => and_congr_left fun _ => mem_gossipKeys

/-- On a node over IPv4 a canonical address reads back as itself. -/
theorem readBack_canonical {uv : Uv} {w : NodeWorld} (h : CleanNode w) {a : Str}
    (ha : a ∈ connectedCanons uv w) : readBack a = a := by
  obtain ⟨p, hp, hcanon⟩ := List.mem_filterMap.mp ha
  obtain ⟨host, port, hhost, rfl⟩ := h.connectedCanon hp hcanon
  rw [readBack, Endpoint.ofString_endpointText hhost.2]
  rfl

/-! ## The loop -/

/-- The connection as it was, but for what it has been told since. -/
structure Tells (c : ClientId) (k : Client) (t : List Str) (w : NodeWorld) : Prop where
  myPeerAddr : (w.clients c).myPeerAddr = k.myPeerAddr
  acts : ∃ l, (w.clients c).acts = k.acts ++ l ∧ l.filterMap Act.toldOf = t

namespace Tells

variable {c : ClientId} {k : Client} {t : List Str} {w : NodeWorld}

theorem refl (c : ClientId) (w : NodeWorld) : Tells c (w.clients c) [] w :=
  ⟨rfl, [], by simp⟩

/-- One more entry in the history. -/
theorem log (a : Act) (h : Tells c k t w) :
    Tells c k (t ++ (Act.toldOf a).toList) (w.modify c (·.log a)) := by
  obtain ⟨l, hl, ht⟩ := h.acts
  refine ⟨?_, l ++ [a], ?_, ?_⟩
  · rw [World.clients_modify_self]
    exact h.myPeerAddr
  · rw [World.clients_modify_self, Client.log, hl, List.append_assoc]
  · rw [List.filterMap_append, ht]
    cases ha : Act.toldOf a <;> simp [ha]

theorem quiet {k' : Client} {w' : NodeWorld} (hq : (w.clients c).Quiet k')
    (hw' : w'.clients c = k') (h : Tells c k t w) : Tells c k t w' := by
  obtain ⟨l, hl, ht⟩ := h.acts
  obtain ⟨l', hl', hquiet⟩ := hq.acts
  refine ⟨by rw [hw', hq.myPeerAddr]; exact h.myPeerAddr, l ++ l', ?_, ?_⟩
  · rw [hw', hl', hl, List.append_assoc]
  · have hnone : l'.filterMap Act.toldOf = [] := by
      refine List.filterMap_eq_nil_iff.mpr fun a ha => ?_
      cases a with
      | sendMessage m => exact absurd (hquiet _ ha) (by simp [Act.isQuiet])
      | _ => rfl
    rw [List.filterMap_append, ht, hnone, List.append_nil]

theorem robust (c : ClientId) (k : Client) (t : List Str) : Robust c (Tells c k t) where
  quiet hf h := h.quiet (hf _) (World.clients_modify_self _ _ _)
  connectionClosed h := h.quiet ((connectionClosed_spec c _).1 c) rfl
  greets {w} {m} hm h := by
    have hlog := h.log (.sendMessage m)
    rcases hm with rfl | ⟨n, rfl⟩
    · simpa [Act.toldOf] using hlog
    · simpa [Act.toldOf] using hlog

theorem otherPeer (uv : Uv) (e : Endpoint) (h : Tells c k t w) :
    Tells c k (t ++ [e.getEndpoint]) (sendMessage uv c (.otherPeer e.myHost e.myPort) w).1 :=
  (robust c k _).sendMessage uv (h.log (.sendMessage (.otherPeer e.myHost e.myPort)))

end Tells

/-- The connection is connected at every check of the loop, and at its end. -/
def StaysThrough (uv : Uv) (c : ClientId) (es : List Endpoint) (w : NodeWorld) : Prop :=
  ∀ l, l <+: es → isConnected uv c ((sendOtherPeersLoop uv c l w).clients c) = true

/-- **What the loop tells**: a part of the list without the peer address, and all of it if
    the connection lasts. -/
theorem tells_loop (uv : Uv) (c : ClientId) (k : Client) : ∀ (es : List Endpoint)
    {w : NodeWorld} {t : List Str}, Tells c k t w → ∃ t',
      Tells c k (t ++ t') (sendOtherPeersLoop uv c es w) ∧
      t'.Sublist ((es.map Endpoint.getEndpoint).filter fun a => a ≠ k.myPeerAddr) ∧
      (StaysThrough uv c es w →
        t' = (es.map Endpoint.getEndpoint).filter fun a => a ≠ k.myPeerAddr) := by
  intro es
  induction es with
  | nil =>
    intro w t h
    refine ⟨[], ?_, by simp, fun _ => rfl⟩
    rw [List.append_nil]
    exact h
  | cons e es ih =>
    intro w t h
    rw [sendOtherPeersLoop]
    split
    · rename_i hconn
      refine ⟨[], by simpa using h, by simp, fun hstay => ?_⟩
      exact absurd ((hstay [] List.nil_prefix).symm.trans hconn) (by simp)
    · rename_i hconn
      rw [h.myPeerAddr]
      by_cases hself : e.getEndpoint ≠ k.myPeerAddr
      · rw [if_pos hself]
        obtain ⟨t', htells, hsub, hall⟩ := ih (h.otherPeer uv e)
        refine ⟨e.getEndpoint :: t', by simpa using htells, ?_, fun hstay => ?_⟩
        · rw [List.map_cons, List.filter_cons_of_pos (by simpa using hself)]
          exact hsub.cons_cons _
        · rw [List.map_cons, List.filter_cons_of_pos (by simpa using hself), hall]
          intro l hl
          have hhead := hstay (e :: l) (List.cons_prefix_cons.mpr ⟨rfl, hl⟩)
          rw [sendOtherPeersLoop, if_neg hconn, h.myPeerAddr, if_pos hself] at hhead
          exact hhead
      · rw [if_neg hself]
        obtain ⟨t', htells, hsub, hall⟩ := ih h
        refine ⟨t', htells, ?_, fun hstay => ?_⟩
        · rw [List.map_cons, List.filter_cons_of_neg (by simpa using hself)]
          exact hsub
        · rw [List.map_cons, List.filter_cons_of_neg (by simpa using hself), hall]
          intro l hl
          have hhead := hstay (e :: l) (List.cons_prefix_cons.mpr ⟨rfl, hl⟩)
          rw [sendOtherPeersLoop, if_neg hconn, h.myPeerAddr, if_neg hself] at hhead
          exact hhead

theorem told_sublist (uv : Uv) (c : ClientId) (w : NodeWorld) :
    (told uv c w).Sublist ((gossipTexts uv w).filter fun a => a ≠ (w.clients c).myPeerAddr) ∧
      (StaysThrough uv c (getConnectedPeers uv w) w →
        told uv c w = (gossipTexts uv w).filter fun a => a ≠ (w.clients c).myPeerAddr) := by
  obtain ⟨t, htells, hsub, hall⟩ := tells_loop uv c (w.clients c) (getConnectedPeers uv w)
    (Tells.refl c w)
  obtain ⟨l, hl, ht⟩ := htells.acts
  have htold : told uv c w = t := by
    unfold told sendOtherPeers
    rw [hl, List.drop_left, ht, List.nil_append]
  rw [map_getConnectedPeers] at hsub hall
  rw [htold]
  exact ⟨hsub, hall⟩

theorem told_of_not_connected {uv : Uv} {c : ClientId} {w : NodeWorld}
    (h : isConnected uv c (w.clients c) = false) : told uv c w = [] := by
  have hnothing : sendOtherPeers uv c w = w := by
    unfold sendOtherPeers
    cases getConnectedPeers uv w with
    | nil => rfl
    | cons e es => rw [sendOtherPeersLoop, if_pos h]
  unfold told
  rw [hnothing, List.drop_length]
  rfl

/-! ## A connection that lasts -/

theorem isConnected_iff {uv : Uv} {c : ClientId} {k : Client} : isConnected uv c k = true ↔
    k.myUvStream ≠ none ∧
      ¬(k.myState = .undefined ∨ k.myState = .notConnected ∨ k.myState = .connecting ∨
        k.myState = .closing ∨ k.myState = .closed) ∧
      ∃ fd, uv.fileno c k = some fd ∧ 0 < fd := by
  unfold isConnected
  split
  · rename_i hnone
    simp [hnone]
  · rename_i hsome
    split
    · rename_i hstate
      simp [hstate]
    · rename_i hstate
      cases hfd : uv.fileno c k with
      | none => simp
      | some fd => simp [hsome, hstate]

theorem isConnected_congr {uv uv' : Uv} {c : ClientId} {k : Client}
    (h : uv'.fileno c k = uv.fileno c k) : isConnected uv' c k = isConnected uv c k := by
  unfold isConnected
  rw [h]

/-- The libuv of a state, frozen: every write succeeds, and no descriptor changes. -/
def Uv.frozenAt (uv : Uv) (w : NodeWorld) : Uv :=
  { uv with write := fun _ _ => 0, fileno := fun d _ => uv.fileno d (w.clients d) }

/-- Under it a write leaves the connection as connected as it was. -/
theorem isConnected_sendMessage_frozen {uv : Uv} {c : ClientId} {w₀ w : NodeWorld} (m : Message)
    (h : isConnected (uv.frozenAt w₀) c (w.clients c) = true) :
    isConnected (uv.frozenAt w₀) c ((sendMessage (uv.frozenAt w₀) c m w).1.clients c) = true := by
  obtain ⟨hstream, hstate, hfd⟩ := isConnected_iff.mp h
  unfold sendMessage
  dsimp only
  split
  · rename_i hclosed
    rw [World.clients_modify_self] at hclosed
    exact absurd (hclosed.elim (fun h => .inr (.inr (.inr (.inl h))))
      fun h => .inr (.inr (.inr (.inr h)))) hstate
  · rw [if_neg (by simp [Uv.frozenAt])]
    simp only [World.clients_modify_self]
    exact isConnected_iff.mpr ⟨hstream, by simp [Client.uvWrite, Client.setState], hfd⟩

theorem staysThrough_frozen (uv : Uv) (w₀ : NodeWorld) {c : ClientId} (es : List Endpoint) :
    ∀ {w : NodeWorld}, isConnected (uv.frozenAt w₀) c (w.clients c) = true →
      StaysThrough (uv.frozenAt w₀) c es w := by
  intro w h l _
  exact gossip_preserves (I := fun w => isConnected (uv.frozenAt w₀) c (w.clients c) = true)
    (fun _ _ _ h => isConnected_sendMessage_frozen _ h) h

/-! ## A peer told about itself -/

/-- The two libuvs find the same descriptors in this state. -/
def Uv.SameDescriptors (uv uv' : Uv) (w : NodeWorld) : Prop :=
  ∀ d, uv'.fileno d (w.clients d) = uv.fileno d (w.clients d)

theorem connectedCanons_congr {uv uv' : Uv} {w : NodeWorld} (h : uv.SameDescriptors uv' w) :
    connectedCanons uv' w = connectedCanons uv w := by
  unfold connectedCanons
  refine congrArg (List.filterMap · w.app.myPeers) (funext fun p => ?_)
  unfold connectedCanon
  cases p.myClient with
  | none => rfl
  | some d => simp only [isConnected_congr (h d)]

/-- Whatever libuv answers during the call, it tells the connection neither of the two
    endpoints the node knows it by. -/
def NeverToldItself (uv : Uv) (c : ClientId) (w : NodeWorld) : Prop :=
  ∀ uv' : Uv, uv.SameDescriptors uv' w →
    (w.clients c).myPeerAddr ∉ told uv' c w ∧ (w.clients c).myCanonPeerAddr ∉ told uv' c w

/-- **A peer told about itself.** Its peer address is never told. Its canonical one is not
    told exactly if there is no call to speak of, the two are the same, or no connected peer
    — the connection's own entry included — has a canonical address that reads back as it. -/
theorem told_itself_iff (uv : Uv) (c : ClientId) (w : NodeWorld) :
    NeverToldItself uv c w ↔
      isConnected uv c (w.clients c) = false ∨
      (w.clients c).myCanonPeerAddr = (w.clients c).myPeerAddr ∨
      ∀ p ∈ w.app.myPeers, ∀ a, connectedCanon uv w p = some a →
        readBack a ≠ (w.clients c).myCanonPeerAddr := by
  constructor
  · intro hnever
    by_contra hcon
    obtain ⟨hconn, hne, hlisted⟩ : isConnected uv c (w.clients c) = true ∧
        (w.clients c).myCanonPeerAddr ≠ (w.clients c).myPeerAddr ∧
        ∃ a ∈ connectedCanons uv w, readBack a = (w.clients c).myCanonPeerAddr := by
      simp only [not_or, not_forall, not_not, Bool.not_eq_false] at hcon
      obtain ⟨hconn, hne, p, hp, a, ha, hback⟩ := hcon
      exact ⟨hconn, hne, a, List.mem_filterMap.mpr ⟨p, hp, ha⟩, hback⟩
    -- under a libuv that lets the call run to its end the whole list is told
    have hsame : uv.SameDescriptors (uv.frozenAt w) w := fun _ => rfl
    have htold := (told_sublist (uv.frozenAt w) c w).2
      (staysThrough_frozen uv w _ ((isConnected_congr (hsame c)).trans hconn))
    apply (hnever _ hsame).2
    rw [htold, List.mem_filter]
    refine ⟨mem_gossipTexts.mpr ?_, by simpa using hne⟩
    rw [connectedCanons_congr hsame]
    exact hlisted
  · intro hcond uv' hsame
    have hsub := (told_sublist uv' c w).1
    constructor
    · intro hmem
      simpa using (List.mem_filter.mp (hsub.subset hmem)).2
    · intro hmem
      obtain ⟨htext, hne⟩ := List.mem_filter.mp (hsub.subset hmem)
      rcases hcond with hconn | heq | hlisted
      · rw [told_of_not_connected ((isConnected_congr (hsame c)).trans hconn)] at hmem
        cases hmem
      · exact absurd heq (by simpa using hne)
      · obtain ⟨a, ha, hback⟩ := mem_gossipTexts.mp htext
        rw [connectedCanons_congr hsame] at ha
        obtain ⟨p, hp, hcanon⟩ := List.mem_filterMap.mp ha
        exact hlisted p hp a hcanon hback

/-- Once it has reached its other local candidate, a node tells that peer to connect to
    `127.0.0.1:5001`, which is the peer itself. -/
theorem told_of_itself :
    (nodeSystem Uv.cooperative).Valid NodeWorld.init
      [.start { listenPort := 5000, listenPortRange := 5 }, .client 0 (.connected 0)] ∧
    (((nodeSystem Uv.cooperative).run NodeWorld.init
      [.start { listenPort := 5000, listenPortRange := 5 },
        .client 0 (.connected 0)]).clients 0).myCanonPeerAddr = "127.0.0.1:5001".toList ∧
    told Uv.cooperative 0 ((nodeSystem Uv.cooperative).run NodeWorld.init
      [.start { listenPort := 5000, listenPortRange := 5 }, .client 0 (.connected 0)]) =
        ["127.0.0.1:5001".toList] := by
  refine ⟨?_, ?_, ?_⟩ <;> decide

/-! ## The outgoing peers -/

/-- The endpoint of a connected outgoing peer: canonical if there is one, else as dialled. -/
def outEndpoint (uv : Uv) (w : NodeWorld) (p : PeerInfo) : Option Str :=
  match p.myClient with
  | none => none
  | some d =>
      if p.myOutFlag = true ∧ isConnected uv d (w.clients d) = true then
        some (w.clients d).getNicePeerAddr
      else none

/-- The endpoints of the connected outgoing peers that are not the connection's own. -/
def OutEndpoint (uv : Uv) (c : ClientId) (w : NodeWorld) (a : Str) : Prop :=
  a ∈ w.app.myPeers.filterMap (outEndpoint uv w) ∧
    a ≠ (w.clients c).myPeerAddr ∧ a ≠ (w.clients c).myCanonPeerAddr

/-- How often an address is told, in a call that runs to its end. -/
theorem count_told {uv : Uv} {c : ClientId} {w : NodeWorld}
    (hstay : StaysThrough uv c (getConnectedPeers uv w) w) {a : Str}
    (ha : a ≠ (w.clients c).myPeerAddr) :
    (told uv c w).count a = 1 ↔ ∃! b, b ∈ connectedCanons uv w ∧ readBack b = a := by
  have hkeys : ∀ b, (b ∈ gossipKeys uv w ∧ readBack b = a) ↔
      (b ∈ connectedCanons uv w ∧ readBack b = a) := fun b => and_congr_left fun _ => mem_gossipKeys
  rw [(told_sublist uv c w).2 hstay, List.count_filter (by simpa using ha), gossipTexts, gossipKeys,
    SortedMap.count_map_keys]
  exact existsUnique_congr hkeys

/-- **Gossip and the outgoing peers.** Each outgoing endpoint is told exactly once if and
    only if one canonical address of the connected peers, and no second one, reads back as
    it; nothing else is told if and only if all these addresses belong to outgoing peers. -/
theorem told_complete_iff {uv : Uv} {c : ClientId} {w : NodeWorld}
    (hstay : StaysThrough uv c (getConnectedPeers uv w) w) :
    ((∀ a, OutEndpoint uv c w a → (told uv c w).count a = 1) ↔
      ∀ a, OutEndpoint uv c w a → ∃! b, b ∈ connectedCanons uv w ∧ readBack b = a) ∧
    ((∀ a ∈ told uv c w, OutEndpoint uv c w a) ↔
      ∀ b ∈ connectedCanons uv w, readBack b ≠ (w.clients c).myPeerAddr →
        OutEndpoint uv c w (readBack b)) := by
  constructor
  · exact forall_congr' fun a => forall_congr' fun ha => count_told hstay ha.2.1
  · rw [(told_sublist uv c w).2 hstay]
    constructor
    · intro honly b hb hne
      refine honly _ (List.mem_filter.mpr ⟨mem_gossipTexts.mpr ⟨b, hb, rfl⟩, ?_⟩)
      simpa using hne
    · intro hcanons a ha
      obtain ⟨htext, hne⟩ := List.mem_filter.mp ha
      obtain ⟨b, hb, rfl⟩ := mem_gossipTexts.mp htext
      exact hcanons b hb (by simpa using hne)

/-- On a node over IPv4 reading back changes nothing, so an outgoing endpoint is told exactly
    if it is a canonical address: a peer dialled by its IP, which gets none, is missed. -/
theorem count_told_clean {uv : Uv} {c : ClientId} {w : NodeWorld} (h : CleanNode w)
    (hstay : StaysThrough uv c (getConnectedPeers uv w) w) {a : Str} (ha : OutEndpoint uv c w a) :
    (told uv c w).count a = 1 ↔ a ∈ connectedCanons uv w := by
  rw [count_told hstay ha.2.1]
  constructor
  · rintro ⟨b, ⟨hb, hback⟩, -⟩
    rw [← hback, readBack_canonical h hb]
    exact hb
  · intro hmem
    refine ⟨a, ⟨hmem, readBack_canonical h hmem⟩, ?_⟩
    rintro b ⟨hb, hback⟩
    rw [← hback, readBack_canonical h hb]

/-- A connection accepted after the other local candidate was reached is told of that one,
    once. -/
theorem told_complete_accepted :
    (told Uv.cooperative 1 ((nodeSystem Uv.cooperative).run NodeWorld.init
      [.start { listenPort := 5000, listenPortRange := 5 }, .client 0 (.connected 0),
        .newConnection 0 0])).count "127.0.0.1:5001".toList = 1 := by
  -- the cooperative libuv is its own frozen one
  have hstay : StaysThrough Uv.cooperative 1
      (getConnectedPeers Uv.cooperative ((nodeSystem Uv.cooperative).run NodeWorld.init
        [.start { listenPort := 5000, listenPortRange := 5 }, .client 0 (.connected 0),
          .newConnection 0 0]))
      ((nodeSystem Uv.cooperative).run NodeWorld.init
        [.start { listenPort := 5000, listenPortRange := 5 }, .client 0 (.connected 0),
          .newConnection 0 0]) :=
    staysThrough_frozen Uv.cooperative NodeWorld.init _ (by decide)
  refine (told_complete_iff hstay).1.mpr (fun a ha => ?_) _ ⟨by decide, by decide, by decide⟩
  have hout : a ∈ ["127.0.0.1:5001".toList] := ha.1
  have hcanons : connectedCanons Uv.cooperative ((nodeSystem Uv.cooperative).run NodeWorld.init
      [.start { listenPort := 5000, listenPortRange := 5 }, .client 0 (.connected 0),
        .newConnection 0 0]) = ["127.0.0.1:5001".toList] := by decide
  rw [hcanons, List.mem_singleton.mp hout]
  exact ⟨_, ⟨List.mem_singleton_self _, by decide⟩, fun b hb => List.mem_singleton.mp hb.1⟩

/-- An outgoing peer dialled by its IP has no canonical address: a connection accepted later
    is not told of it. -/
theorem told_incomplete :
    (nodeSystem Uv.cooperative).Valid NodeWorld.init
      [.start { extraPeers := ["127.0.0.1:5002".toList], listenPort := 5000,
                listenPortRange := 5 }, .client 0 (.connected 0), .newConnection 0 0] ∧
    isConnected Uv.cooperative 2 ((sendOtherPeers Uv.cooperative 2
      ((nodeSystem Uv.cooperative).run NodeWorld.init
        [.start { extraPeers := ["127.0.0.1:5002".toList], listenPort := 5000,
                  listenPortRange := 5 }, .client 0 (.connected 0),
          .newConnection 0 0])).clients 2) = true ∧
    OutEndpoint Uv.cooperative 2 ((nodeSystem Uv.cooperative).run NodeWorld.init
      [.start { extraPeers := ["127.0.0.1:5002".toList], listenPort := 5000,
                listenPortRange := 5 }, .client 0 (.connected 0), .newConnection 0 0])
      "127.0.0.1:5002".toList ∧
    (told Uv.cooperative 2 ((nodeSystem Uv.cooperative).run NodeWorld.init
      [.start { extraPeers := ["127.0.0.1:5002".toList], listenPort := 5000,
                listenPortRange := 5 }, .client 0 (.connected 0),
        .newConnection 0 0])).count "127.0.0.1:5002".toList = 0 := by
  refine ⟨?_, ?_, ⟨?_, ?_, ?_⟩, ?_⟩ <;> decide

end TcpUv
