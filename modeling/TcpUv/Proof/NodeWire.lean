import TcpUv.Proof.NodeRules
import TcpUv.Proof.Framing

/-!
# What a node may say

What a peer sends ends up in what a node writes: hosts in candidates, addresses in
handshakes, texts in pings. `CleanNode` says where such text can stand and what is known
of it there; the two kinds of knowledge are *word* (it survives tokenisation) and *host*
(it also has no colon, so that the endpoint it is put into cuts back at the same place).
Host texts come from libuv only: that is why an endpoint learned from a handshake is
built from the remote address and not from anything the peer wrote.
-/

set_option autoImplicit false

namespace TcpUv

open Lib NodeApp

/-! ## Text lemmas -/

/-- Free of whitespace, possibly empty. -/
def NoSpace (s : Str) : Prop := ∀ ch ∈ s, isspace ch = false

theorem NoSpace.append {s t : Str} (hs : NoSpace s) (ht : NoSpace t) : NoSpace (s ++ t) := by
  intro ch hch
  rcases List.mem_append.mp hch with h | h
  · exact hs ch h
  · exact ht ch h

theorem NoSpace.cons {ch : Char} {s : Str} (hch : isspace ch = false) (hs : NoSpace s) :
    NoSpace (ch :: s) := by
  intro d hd
  rcases List.mem_cons.mp hd with rfl | hd
  · exact hch
  · exact hs d hd

theorem NoSpace.isWord_cons {ch : Char} {s : Str} (hch : isspace ch = false) (hs : NoSpace s) :
    IsWord (ch :: s) := ⟨by simp, hs.cons hch⟩

theorem noSpace_stdToString (n : Int) : NoSpace (stdToString n) := (isWord_stdToString n).2

theorem isWord_listenName (port : Int32) : IsWord (':' :: stdToString port.toInt) :=
  (noSpace_stdToString _).isWord_cons (by decide)

/-- An endpoint text is a word whatever its host is, as long as that has no space. -/
theorem isWord_endpointText {host : Str} (h : NoSpace host) (port : Int32) :
    IsWord (endpointText host port) :=
  ⟨by simp [endpointText], h.append ((noSpace_stdToString _).cons (by decide))⟩

theorem isWord_pingText {name peerAddr : Str} (hn : IsWord name) (ha : IsWord peerAddr)
    (n : Int) : IsWord (pingText name peerAddr n) := by
  have hfrom : NoSpace textPingFrom := (by decide : IsWord textPingFrom).2
  have hto : NoSpace textTo := (by decide : IsWord textTo).2
  have hcounter : NoSpace ('_' :: stdToString n) := (noSpace_stdToString n).cons (by decide)
  exact ⟨by simp [pingText, textPingFrom],
    (((hfrom.append hn.2).append hto).append ha.2).append hcounter⟩

theorem isWord_respText {name text : Str} (hn : IsWord name) (ht : IsWord text) :
    IsWord (textRespFrom ++ name ++ textTo ++ text) := by
  have hfrom : NoSpace textRespFrom := (by decide : IsWord textRespFrom).2
  have hto : NoSpace textTo := (by decide : IsWord textTo).2
  exact ⟨by simp [textRespFrom], ((hfrom.append hn.2).append hto).append ht.2⟩

theorem Endpoint.ofString_noSpace {s : Str} (h : NoSpace s) :
    NoSpace (Endpoint.ofString s).myHost := by
  have htake : ∀ n, NoSpace (s.take n) := fun n ch hch => h ch (List.mem_of_mem_take hch)
  unfold Endpoint.ofString
  split
  · exact h
  · split
    · exact htake _
    · exact htake _

/-- An address built from a host libuv reported. -/
def HostPort (a : Str) : Prop := ∃ host port, IsHost host ∧ a = endpointText host port

theorem HostPort.host {a : Str} (h : HostPort a) : IsHost (Endpoint.ofString a).myHost := by
  obtain ⟨host, port, hhost, rfl⟩ := h
  rw [Endpoint.ofString_endpointText hhost.2]
  exact hhost

/-! ## The invariant -/

/-- No text of a node's state can break a frame. -/
structure CleanNode (w : NodeWorld) : Prop where
  /-- the name is set before there is a connection to tell it to -/
  name : w.net.listening = true ∨ 0 < w.next → IsWord w.app.myName
  host : ∀ k i, w.app.myPeerCands.find? k = some i → NoSpace i.myHost
  exist : ∀ p ∈ w.app.myPeers, ∀ c, p.myClient = some c → c < w.next
  peerAddr : ∀ c < w.next, IsWord (w.clients c).myPeerAddr
  incoming : ∀ p ∈ w.app.myPeers, p.myOutFlag = false → ∀ c, p.myClient = some c →
    HostPort (w.clients c).myPeerAddr
  canonical : ∀ c < w.next, (w.clients c).myCanonPeerAddr = [] ∨
    HostPort (w.clients c).myCanonPeerAddr
  sent : ∀ c m, Act.sendMessage m ∈ (w.clients c).acts → m.WF

/-- The parameters a node may be started with. -/
def AppParams.Clean (params : AppParams) : Prop := ∀ p ∈ params.extraPeers, NoSpace p

namespace CleanNode

variable {w w' : NodeWorld}

/-- What a world needs for being clean when only its machinery moved and entries were
    dropped. -/
theorem of_quiet (h : CleanNode w) (hq : ∀ d, (w.clients d).Quiet (w'.clients d))
    (hnext : w'.next = w.next) (hnet : w'.net.listening = w.net.listening)
    (hname : w'.app.myName = w.app.myName) (hcands : w'.app.myPeerCands = w.app.myPeerCands)
    (hpeers : ∀ p ∈ w'.app.myPeers, p ∈ w.app.myPeers) : CleanNode w' where
  name hn := by
    rw [hname]
    exact h.name (by rw [← hnet, ← hnext]; exact hn)
  host := by rw [hcands]; exact h.host
  exist p hp c hc := by rw [hnext]; exact h.exist p (hpeers p hp) c hc
  peerAddr c hc := by
    rw [(hq c).myPeerAddr]
    exact h.peerAddr c (hnext ▸ hc)
  incoming p hp hin c hc := by
    rw [(hq c).myPeerAddr]
    exact h.incoming p (hpeers p hp) hin c hc
  canonical c hc := by
    rw [(hq c).myCanonPeerAddr]
    exact h.canonical c (hnext ▸ hc)
  sent c m hm := by
    obtain ⟨l, hl, hquiet⟩ := (hq c).acts
    rw [hl] at hm
    rcases List.mem_append.mp hm with hm | hm
    · exact h.sent c m hm
    · exact absurd (hquiet _ hm) (by simp [Act.isQuiet])

/-- A write to one client: its address kept, its canonical address and the messages it
    sent accounted for. -/
theorem modify (h : CleanNode w) (c : ClientId) {f : Client → Client}
    (haddr : ∀ k, (f k).myPeerAddr = k.myPeerAddr)
    (hcanon : (f (w.clients c)).myCanonPeerAddr = (w.clients c).myCanonPeerAddr ∨
      HostPort (f (w.clients c)).myCanonPeerAddr)
    (hacts : ∀ m, Act.sendMessage m ∈ (f (w.clients c)).acts →
      Act.sendMessage m ∈ (w.clients c).acts ∨ m.WF) : CleanNode (w.modify c f) where
  name := h.name
  host := h.host
  exist := h.exist
  peerAddr d hd := by
    rw [World.clients_modify]
    split
    · rw [haddr]
      exact h.peerAddr d hd
    · exact h.peerAddr d hd
  incoming p hp hin d hd := by
    rw [World.clients_modify]
    split
    · rw [haddr]
      exact h.incoming p hp hin d hd
    · exact h.incoming p hp hin d hd
  canonical d hd := by
    rw [World.clients_modify]
    split
    · subst d
      rcases hcanon with hsame | hnew
      · rw [hsame]
        exact h.canonical c hd
      · exact Or.inr hnew
    · exact h.canonical d hd
  sent d m hm := by
    rw [World.clients_modify] at hm
    split at hm
    · subst d
      rcases hacts m hm with hold | hnew
      · exact h.sent c m hold
      · exact hnew
    · exact h.sent d m hm

theorem quiet (h : CleanNode w) (c : ClientId) {f : Client → Client}
    (hf : ∀ k : Client, k.Quiet (f k)) : CleanNode (w.modify c f) := by
  refine h.of_quiet (fun d => ?_) rfl rfl rfl rfl fun _ hp => hp
  rw [World.clients_modify]
  split
  · exact hf _
  · exact .silent rfl

theorem connectionClosed (h : CleanNode w) (c : ClientId) :
    CleanNode (NodeApp.connectionClosed c w) := by
  obtain ⟨hq, hnext, hnet, happ⟩ := connectionClosed_spec c w
  refine h.of_quiet hq hnext (by rw [hnet]) (by rw [happ]) (by rw [happ]) ?_
  rw [happ]
  exact fun p hp => List.mem_of_mem_filter hp

/-- Sending a message whose fields are words. -/
theorem send (h : CleanNode w) (c : ClientId) {m : Message} (hm : m.WF) :
    CleanNode (w.modify c (·.log (.sendMessage m))) := by
  refine h.modify c (fun _ => rfl) (Or.inl rfl) fun m' hm' => ?_
  rcases List.mem_append.mp hm' with hold | hnew
  · exact Or.inl hold
  · rw [List.mem_singleton, Act.sendMessage.injEq] at hnew
    exact Or.inr (hnew ▸ hm)

theorem wf_greets (h : CleanNode w) {c : ClientId} (hc : c < w.next) {m : Message}
    (hm : Greets c w m) : m.WF := by
  have hname : IsWord w.app.myName := h.name (Or.inr (Nat.lt_of_le_of_lt (Nat.zero_le c) hc))
  have hv : IsWord textV01 := by decide
  intro f hf
  rcases hm with rfl | ⟨n, rfl⟩
  · simp only [Message.fields, List.mem_cons, List.not_mem_nil, or_false] at hf
    rcases hf with rfl | rfl | rfl
    · exact hv
    · exact h.peerAddr c hc
    · exact hname
  · rw [List.mem_singleton.mp hf]
    exact isWord_pingText hname (h.peerAddr c hc) n

/-- The canonical addresses of the connected peers are endpoint texts. -/
theorem connectedCanon (h : CleanNode w) {uv : Uv} {p : PeerInfo} (hp : p ∈ w.app.myPeers)
    {a : Str} (ha : NodeApp.connectedCanon uv w p = some a) : HostPort a := by
  obtain ⟨c, hc, -, rfl, hne⟩ := connectedCanon_eq_some ha
  rcases h.canonical c (h.exist p hp c hc) with hnil | hhost
  · exact absurd hnil hne
  · exact hhost

/-- The endpoints of the connected peers have host texts. -/
theorem connectedPeers (h : CleanNode w) {uv : Uv} {e : Endpoint}
    (he : e ∈ getConnectedPeers uv w) : IsHost e.myHost := by
  obtain ⟨k, hk, rfl⟩ := List.mem_map.mp he
  rcases (SortedMap.mem_keys_collect _ () _ k).mp hk with hk | hk
  · obtain ⟨p, hp, hcanon⟩ := List.mem_filterMap.mp hk
    exact (h.connectedCanon hp hcanon).host
  · exact absurd hk (by simp)

/-- The peer a handshake was accepted from has an address libuv reported. -/
theorem handshaken (h : CleanNode w) {c : ClientId} (hc : c < w.next)
    (hconn : isPeerConnected w (w.clients c).myPeerAddr false = true) :
    HostPort (w.clients c).myPeerAddr := by
  obtain ⟨p, hp, hin, hm⟩ := isPeerConnected_iff.mp hconn
  unfold PeerInfo.matches at hm
  cases hd : p.myClient with
  | none => rw [hd] at hm; cases hm
  | some d =>
    rw [hd, Bool.or_eq_true, decide_eq_true_eq, decide_eq_true_eq] at hm
    rcases hm with haddr | hcanon
    · exact haddr ▸ h.incoming p hp hin d hd
    · rcases h.canonical d (h.exist p hp d hd) with hnil | hhost
      · rw [hnil] at hcanon
        exact absurd hcanon.symm (h.peerAddr c hc).1
      · exact hcanon ▸ hhost

theorem addOutPeerCandidate (h : CleanNode w) {host : Str} (hhost : NoSpace host)
    (port : Int32) (toTry : Int) :
    CleanNode { w with app := w.app.addOutPeerCandidate host port toTry } := by
  unfold NodeApp.addOutPeerCandidate
  dsimp only
  split
  · refine ⟨h.name, fun k i hk => ?_, h.exist, h.peerAddr, h.incoming, h.canonical, h.sent⟩
    rw [SortedMap.find?_modify] at hk
    split at hk
    · obtain ⟨i₀, hi₀, rfl⟩ := Option.map_eq_some_iff.mp hk
      exact h.host k i₀ hi₀
    · exact h.host k i hk
  · refine ⟨h.name, fun k i hk => ?_, h.exist, h.peerAddr, h.incoming, h.canonical, h.sent⟩
    rw [SortedMap.find?_insert] at hk
    split at hk
    · rw [← Option.some.inj hk]
      exact hhost
    · exact h.host k i hk

theorem modifyCand (h : CleanNode w) (key : Str) {f : PeerCandidateInfo → PeerCandidateInfo}
    (hf : ∀ i, (f i).myHost = i.myHost) : CleanNode (NodeApp.modifyCand key f w) := by
  refine ⟨h.name, fun k i hk => ?_, h.exist, h.peerAddr, h.incoming, h.canonical, h.sent⟩
  change (w.app.myPeerCands.modify key f).find? k = some i at hk
  rw [SortedMap.find?_modify] at hk
  split at hk
  · obtain ⟨i₀, hi₀, rfl⟩ := Option.map_eq_some_iff.mp hk
    rw [hf]
    exact h.host k i₀ hi₀
  · exact h.host k i hk

/-- A new client with a word for an address, appended to the list of peers. -/
theorem append (h : CleanNode w) (hname : IsWord w.app.myName) {k : Client} (out : Bool)
    (haddr : IsWord k.myPeerAddr) (hin : out = false → HostPort k.myPeerAddr)
    (hcanon : k.myCanonPeerAddr = []) (hacts : ∀ m, Act.sendMessage m ∉ k.acts) :
    CleanNode { w.create k with
      app := { w.app with myPeers := w.app.myPeers ++ [⟨some w.next, out⟩] } } where
  name _ := hname
  host := h.host
  exist p hp c hc := by
    rcases List.mem_append.mp hp with hp | hp
    · exact Nat.lt_succ_of_lt (h.exist p hp c hc)
    · rw [List.mem_singleton.mp hp, Option.some.injEq] at hc
      exact hc ▸ Nat.lt_succ_self _
  peerAddr c hc := by
    rcases Nat.lt_succ_iff_lt_or_eq.mp hc with hlt | rfl
    · show IsWord ((w.create k).clients c).myPeerAddr
      rw [World.clients_create_ne w k (Nat.ne_of_lt hlt)]
      exact h.peerAddr c hlt
    · show IsWord ((w.create k).clients w.next).myPeerAddr
      rw [World.clients_create_next]
      exact haddr
  incoming p hp hout c hc := by
    show HostPort ((w.create k).clients c).myPeerAddr
    rcases List.mem_append.mp hp with hp | hp
    · rw [World.clients_create_ne w k (Nat.ne_of_lt (h.exist p hp c hc))]
      exact h.incoming p hp hout c hc
    · rw [List.mem_singleton.mp hp, Option.some.injEq] at hc
      rw [List.mem_singleton.mp hp] at hout
      subst hc
      rw [World.clients_create_next]
      exact hin hout
  canonical c hc := by
    rcases Nat.lt_succ_iff_lt_or_eq.mp hc with hlt | rfl
    · show ((w.create k).clients c).myCanonPeerAddr = [] ∨
        HostPort ((w.create k).clients c).myCanonPeerAddr
      rw [World.clients_create_ne w k (Nat.ne_of_lt hlt)]
      exact h.canonical c hlt
    · left
      show ((w.create k).clients w.next).myCanonPeerAddr = []
      rw [World.clients_create_next]
      exact hcanon
  sent c m hm := by
    change Act.sendMessage m ∈ ((w.create k).clients c).acts at hm
    by_cases hc : c = w.next
    · subst hc
      rw [World.clients_create_next] at hm
      exact absurd hm (hacts m)
    · rw [World.clients_create_ne w k hc] at hm
      exact h.sent c m hm

theorem robust (c : ClientId) :
    Robust c (fun w : NodeWorld => c < w.next ∧ CleanNode w) where
  quiet hf h := ⟨h.1, h.2.quiet c hf⟩
  connectionClosed h := ⟨by
    rw [show (BaseApp.connectionClosed c _ : NodeWorld).next = _ from
      next_connectionClosed c _]
    exact h.1, h.2.connectionClosed c⟩
  greets hm h := ⟨h.1, h.2.send c (h.2.wf_greets h.1 hm)⟩

theorem tryCandidate (uv : Uv) (h : CleanNode w) (hs : Started w) (key : Str) :
    CleanNode (tryCandidate uv w key) := by
  have hname : IsWord w.app.myName := by
    rcases hs with hnext | ⟨port, hport⟩
    · exact h.name (Or.inr hnext)
    · rw [hport]
      exact isWord_listenName port
  have happended : ∀ i, w.app.myPeerCands.find? key = some i →
      CleanNode (connect uv w.next (NodeApp.appendOut i.myHost i.myPort
        (NodeApp.modifyCand key PeerCandidateInfo.tried w))).1 := by
    intro i hfind
    have htry := h.modifyCand key (f := PeerCandidateInfo.tried) fun _ => rfl
    have hnew := htry.append hname (k := PeerClientOut.new i.myHost i.myPort) true
      (isWord_endpointText (h.host key i hfind) i.myPort) (fun h => nomatch h) rfl
      fun _ hm => nomatch hm
    exact ((robust w.next).connect uv ⟨Nat.lt_succ_self _, hnew⟩).2
  have hround := round_tryCandidate uv w key
  generalize NodeApp.tryCandidate uv w key = w' at hround ⊢
  cases hround with
  | skipped => exact h
  | self =>
    have htry := h.modifyCand key (f := PeerCandidateInfo.tried) fun _ => rfl
    exact htry.modifyCand key (f := PeerCandidateInfo.connected) fun _ => rfl
  | attempted i hfind =>
    exact (happended i hfind).modifyCand key (f := PeerCandidateInfo.connected) fun _ => rfl
  | failed i hfind => exact happended i hfind

theorem addStartCandidates (h : CleanNode w) {params : AppParams} (hp : params.Clean) :
    CleanNode { w with app := w.app.addStartCandidates params.extraPeers } := by
  have hlocalhost : NoSpace textLocalhost := (by decide : IsWord textLocalhost).2
  exact startCandidates_preserve (I := fun a => CleanNode { w with app := a })
    (fun port h => h.addOutPeerCandidate hlocalhost port 1)
    (fun p hm _ h => h.addOutPeerCandidate (Endpoint.ofString_noSpace (hp p hm)) _ 1000000) h

end CleanNode

/-- **No event of a clean node's environment makes it unclean**, over IPv4. -/
theorem nodeInvariant_cleanNode {uv : Uv} (hip : uv.IPv4) :
    NodeInvariant uv AppParams.Clean (fun w => CleanNode w) where
  quiet _ hf h := h.quiet _ hf
  connectionClosed _ h := h.connectionClosed _
  greets hc hm h := h.send _ (h.wf_greets hc hm)
  handshakeResponse hc h := h.send _ (by
    have hname := h.name (Or.inr (Nat.lt_of_le_of_lt (Nat.zero_le _) hc))
    have hv : IsWord textV01 := by decide
    simpa [Message.WF, Message.fields, hv, hname] using h.peerAddr _ hc)
  pingResponse hc ht h := h.send _ (by
    have hname := h.name (Or.inr (Nat.lt_of_le_of_lt (Nat.zero_le _) hc))
    simpa [Message.WF, Message.fields] using isWord_respText hname ht)
  otherPeer _ h₀ he h := h.send _ (by
    simpa [Message.WF, Message.fields] using (h₀.connectedPeers he).1)
  canonical _ hc₀ _ h₀ hconn h := h.modify _ (fun _ => rfl)
    (Or.inr ⟨_, _, (h₀.handshaken hc₀ hconn).host, rfl⟩) fun _ hm => Or.inl hm
  canonicalCandidate _ hc₀ h₀ hconn h :=
    h.addOutPeerCandidate (h₀.handshaken hc₀ hconn).host.1.2 _ 1
  candidate hhost h := h.addOutPeerCandidate hhost.2 _ 1
  tryCandidate hs h := h.tryCandidate uv hs _
  connected _ h _ := h.modify _ (fun _ => rfl)
    (Or.inr ⟨_, _, remoteHost_ok uv (hip _ _), rfl⟩) fun _ hm => Or.inl hm
  buffer _ _ h := h.modify _ (fun _ => rfl) (Or.inl rfl) fun _ hm => Or.inl hm
  handed _ _ h := h.modify _ (fun _ => rfl) (Or.inl rfl) fun m hm =>
    Or.inl (by simpa [Client.handOver, Client.log, Client.setState] using hm)
  accepted hl h :=
    have hhost := remoteHost_ok uv (hip _ 1)
    h.append (h.name (Or.inl hl)) false (isWord_endpointText hhost.1.2 _)
      (fun _ => ⟨_, _, hhost, rfl⟩) rfl (by simp [NetClientIn.new, Client.setState, Client.setUvStream])
  named port _ h := ⟨fun _ => isWord_listenName port, h.host, h.exist, h.peerAddr, h.incoming,
    h.canonical, h.sent⟩
  net hl h := h.of_quiet (fun _ => .silent rfl) rfl hl rfl rfl fun _ hp => hp
  terminated _ h := h.of_quiet (fun _ => .silent rfl) rfl rfl rfl rfl fun _ hp => hp
  started hp h := h.addStartCandidates hp

theorem cleanNode_init : CleanNode NodeWorld.init where
  name h := h.elim (fun h => nomatch h) (fun h => nomatch h)
  host _ _ h := nomatch h
  exist _ h := nomatch h
  peerAddr _ h := nomatch h
  incoming _ h := nomatch h
  canonical _ h := nomatch h
  sent _ _ h := nomatch h

end TcpUv
