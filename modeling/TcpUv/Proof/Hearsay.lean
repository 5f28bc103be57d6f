import TcpUv.Proof.NodeGuards
import TcpUv.Proof.NodeTables
import TcpUv.Proof.NodeWire

/-!
# Hearsay

What a node knows of other nodes, and from where. Hosts come from libuv, ports from handshakes
and from start parameters, whole endpoints from gossip. `Rumours` is an account of what may be
known: hosts that were reported, ports somebody listens on, and the endpoints that can be put
together from these. A node that is told only what the account has (`Told`) knows, dials and
tells only what the account has: `Sourced` is that invariant, `guarded_sourced` that nothing a
node does breaks it.

The account is a parameter. The widest one (`Rumours.any`) leaves what the machinery needs, that
no handshake carries a port the receiver cannot parse; narrower ones say where a candidate came
from.
-/

set_option autoImplicit false

namespace TcpUv

open Lib NodeApp

/-! ## The account -/

/-- What may be known in a network. -/
structure Rumours where
  /-- a host libuv reported -/
  host : Str → Prop
  /-- a port some node listens on -/
  listened : Int32 → Prop
  known : Str → Int32 → Prop
  isHost : ∀ {h : Str}, host h → IsHost h
  noSpace : ∀ {h : Str} {port : Int32}, known h port → NoSpace h
  /-- a name resolves to an address -/
  resolved : ∀ {h h' : Str} {port : Int32}, known h port → host h' → known h' port
  /-- a peer tells its port -/
  announced : ∀ {h : Str} {port : Int32}, host h → listened port → known h port
  /-- what every node starts with -/
  builtIn : known textLocalhost 5000 ∧ known textLocalhost 5001

/-- The widest account: any host, any port. -/
def Rumours.any : Rumours where
  host := IsHost
  listened _ := True
  known h _ := NoSpace h
  isHost := id
  noSpace := id
  resolved _ h := h.1.2
  announced h _ := h.1.2
  builtIn := ⟨(by decide : IsWord textLocalhost).2, (by decide : IsWord textLocalhost).2⟩

/-- A name that tells a port in `L`. -/
def TellsPort (L : Int32 → Prop) (name : Str) : Prop :=
  ∃ port, L port ∧ name = ':' :: stdToString port.toInt

/-- The port a name tells is the port that is read from it. -/
theorem TellsPort.port {L : Int32 → Prop} {name : Str} (h : TellsPort L name) {port : Int32}
    (hport : stoi (name.drop 1) = .ok port) : L port := by
  obtain ⟨port', hlistened, rfl⟩ := h
  rw [List.drop_succ_cons, List.drop_zero, stoi_stdToString] at hport
  rw [← Except.ok.inj hport]
  exact hlistened

namespace Rumours

variable (Γ : Rumours)

/-- Every host libuv reports to this process is in the account. -/
def Covers (uv : Uv) : Prop :=
  ∀ c h, Γ.host (getRemoteAddressHostPort uv (uv.getpeername c h)).1

/-- The endpoints of the start parameters are in the account. -/
def Allows (params : AppParams) : Prop :=
  ∀ p ∈ params.extraPeers, 0 < p.length →
    Γ.known (Endpoint.ofString p).myHost (Endpoint.ofString p).myPort

/-- An address made of a host libuv reported. -/
def Reported (a : Str) : Prop := ∃ host port, Γ.host host ∧ a = endpointText host port

/-- … and whose endpoint is known. -/
def Canonical (a : Str) : Prop :=
  ∃ host port, Γ.host host ∧ Γ.known host port ∧ a = endpointText host port

/-- A message that tells nothing but what is in the account, and of ports only those in `L`. -/
def Told (L : Int32 → Prop) : Message → Prop
  | .handshake _ _ myAddr => myAddr.take 1 = [':'] → TellsPort L myAddr
  | .otherPeer host port => Γ.known host port
  | _ => True

variable {Γ}

theorem Reported.host {a : Str} (h : Γ.Reported a) : Γ.host (Endpoint.ofString a).myHost := by
  obtain ⟨host, port, hhost, rfl⟩ := h
  rw [Endpoint.ofString_endpointText (Γ.isHost hhost).2]
  exact hhost

theorem Canonical.reported {a : Str} (h : Γ.Canonical a) : Γ.Reported a := by
  obtain ⟨host, port, hhost, -, rfl⟩ := h
  exact ⟨host, port, hhost, rfl⟩

theorem Canonical.known {a : Str} (h : Γ.Canonical a) :
    Γ.known (Endpoint.ofString a).myHost (Endpoint.ofString a).myPort := by
  obtain ⟨host, port, hhost, hknown, rfl⟩ := h
  rw [Endpoint.ofString_endpointText (Γ.isHost hhost).2]
  exact hknown

theorem Told.mono {L L' : Int32 → Prop} (hL : ∀ port, L port → L' port) {m : Message}
    (h : Γ.Told L m) : Γ.Told L' m := by
  cases m with
  | handshake v y a => exact fun hcolon => (h hcolon).imp fun port hp => ⟨hL port hp.1, hp.2⟩
  | _ => exact h

/-- A node takes every message that tells only what is in the account. -/
theorem Told.takes {L : Int32 → Prop} {m : Message} (h : Γ.Told L m) (uv : Uv) (c : ClientId) :
    Takes (σ := NodeApp) uv c m := by
  intro w
  cases m with
  | handshake myVersion yourAddr myAddr =>
    show ∃ w', NodeApp.messageReceived uv c _ w = .returns w'
    unfold NodeApp.messageReceived
    dsimp only
    split
    · exact ⟨_, rfl⟩
    · split
      · exact ⟨_, rfl⟩
      · split
        · exact ⟨_, rfl⟩
        · rename_i hcolon
          obtain ⟨port, -, rfl⟩ := h (not_not.mp hcolon)
          rw [List.drop_succ_cons, List.drop_zero, stoi_stdToString]
          exact ⟨_, rfl⟩
  | _ => exact ⟨_, rfl⟩

end Rumours

/-! ## The invariant -/

/-- The canonical address of an incoming connection is made of its address, and of a port that was
    told on it. -/
def Client.CanonTold (k : Client) : Prop :=
  k.kind = .netClientIn → k.myCanonPeerAddr = [] ∨ ∃ v y port,
    Act.messageReceived (.handshake v y (':' :: stdToString port.toInt)) ∈ k.acts ∧
      k.myCanonPeerAddr = endpointText (Endpoint.ofString k.myPeerAddr).myHost port

/-- What is told stays told. -/
theorem Client.CanonTold.kept {k k' : Client} (h : k.CanonTold) (hkind : k'.kind = k.kind)
    (haddr : k'.myPeerAddr = k.myPeerAddr) (hcanon : k'.myCanonPeerAddr = k.myCanonPeerAddr)
    (hacts : k.acts ⊆ k'.acts) : k'.CanonTold := by
  unfold Client.CanonTold
  rw [hkind, haddr, hcanon]
  exact fun hin => (h hin).imp_right fun ⟨v, y, port, htold, hc⟩ => ⟨v, y, port, hacts htold, hc⟩

/-- A node knows, dials and tells only what is in the account. -/
structure Sourced (Γ : Rumours) (L : Int32 → Prop) (w : NodeWorld) : Prop where
  /-- the name is set before there is a connection to tell it to -/
  name : w.net.listening = true ∨ 0 < w.next → TellsPort L w.app.myName
  cands : ∀ key i, w.app.myPeerCands.find? key = some i → Γ.known i.myHost i.myPort
  exist : ∀ p ∈ w.app.myPeers, ∀ c, p.myClient = some c → c < w.next
  dialled : ∀ c < w.next, (w.clients c).kind ≠ .netClientIn →
    Γ.known (w.clients c).myHost (w.clients c).myPort
  peerAddr : ∀ c < w.next, (w.clients c).myPeerAddr ≠ []
  incoming : ∀ p ∈ w.app.myPeers, p.myOutFlag = false → ∀ c, p.myClient = some c →
    Γ.Reported (w.clients c).myPeerAddr
  canonical : ∀ c < w.next, (w.clients c).myCanonPeerAddr = [] ∨
    Γ.Canonical (w.clients c).myCanonPeerAddr
  canonTold : ∀ c < w.next, (w.clients c).CanonTold
  sent : ∀ c m, Act.sendMessage m ∈ (w.clients c).acts → Γ.Told L m

/-- What a write to a client must leave alone, or account for. -/
structure Client.KeepsSource (Γ : Rumours) (L : Int32 → Prop) (k k' : Client) : Prop where
  kind : k'.kind = k.kind
  myPeerAddr : k'.myPeerAddr = k.myPeerAddr
  myHost : k'.myHost = k.myHost
  myPort : k'.myPort = k.myPort
  canonical : k'.myCanonPeerAddr = k.myCanonPeerAddr ∨ Γ.Canonical k'.myCanonPeerAddr
  canonTold : k.CanonTold → k'.CanonTold
  sent : ∀ m, Act.sendMessage m ∈ k'.acts → Act.sendMessage m ∈ k.acts ∨ Γ.Told L m

section

variable {Γ : Rumours} {L : Int32 → Prop}

theorem Client.Quiet.keepsSource {k k' : Client} (h : k.Quiet k') : k.KeepsSource Γ L k' := by
  obtain ⟨l, hl, hq⟩ := h.acts
  have hgrown : k.acts ⊆ k'.acts := fun a ha => hl ▸ List.mem_append_left l ha
  refine ⟨h.kind, h.myPeerAddr, h.myHost, h.myPort, Or.inl h.myCanonPeerAddr,
    fun ht => ht.kept h.kind h.myPeerAddr h.myCanonPeerAddr hgrown, fun m hm => ?_⟩
  rw [hl] at hm
  rcases List.mem_append.mp hm with hm | hm
  · exact Or.inl hm
  · exact absurd (hq _ hm) (by simp [Act.isQuiet])

theorem Client.keepsSource_send {m : Message} (hm : Γ.Told L m) (k : Client) :
    k.KeepsSource Γ L (k.log (.sendMessage m)) := by
  refine ⟨rfl, rfl, rfl, rfl, Or.inl rfl,
    fun ht => ht.kept rfl rfl rfl (List.subset_append_left _ _), fun m' hm' => ?_⟩
  rcases List.mem_append.mp hm' with hold | hnew
  · exact Or.inl hold
  · rw [List.mem_singleton, Act.sendMessage.injEq] at hnew
    exact Or.inr (hnew ▸ hm)

end

namespace Sourced

variable {Γ : Rumours} {L : Int32 → Prop} {uv : Uv} {w w' : NodeWorld} {c : ClientId}

/-- Only clients moved, each of them leaving its source alone, and entries were dropped. -/
theorem of_clients (h : Sourced Γ L w)
    (hclients : ∀ d, (w.clients d).KeepsSource Γ L (w'.clients d)) (hnext : w'.next = w.next)
    (hnet : w'.net.listening = w.net.listening) (hname : w'.app.myName = w.app.myName)
    (hcands : w'.app.myPeerCands = w.app.myPeerCands)
    (hpeers : ∀ p ∈ w'.app.myPeers, p ∈ w.app.myPeers) : Sourced Γ L w' where
  name hn := by
    rw [hname]
    exact h.name (by rw [← hnet, ← hnext]; exact hn)
  cands := by
    rw [hcands]
    exact h.cands
  exist p hp d hd := by
    rw [hnext]
    exact h.exist p (hpeers p hp) d hd
  dialled d hd hkind := by
    have hk := hclients d
    rw [hk.myHost, hk.myPort]
    exact h.dialled d (hnext ▸ hd) (hk.kind ▸ hkind)
  peerAddr d hd := by
    rw [(hclients d).myPeerAddr]
    exact h.peerAddr d (hnext ▸ hd)
  incoming p hp hin d hd := by
    rw [(hclients d).myPeerAddr]
    exact h.incoming p (hpeers p hp) hin d hd
  canonical d hd := by
    rcases (hclients d).canonical with hsame | hnew
    · rw [hsame]
      exact h.canonical d (hnext ▸ hd)
    · exact Or.inr hnew
  canonTold d hd := (hclients d).canonTold (h.canonTold d (hnext ▸ hd))
  sent d m hm := ((hclients d).sent m hm).elim (h.sent d m) id

theorem modify (h : Sourced Γ L w) {f : Client → Client}
    (hf : (w.clients c).KeepsSource Γ L (f (w.clients c))) : Sourced Γ L (w.modify c f) := by
  refine h.of_clients (fun d => ?_) rfl rfl rfl rfl fun _ hp => hp
  rw [World.clients_modify]
  split
  · rename_i hd
    exact hd ▸ hf
  · exact (Client.Quiet.silent rfl).keepsSource

theorem quiet (h : Sourced Γ L w) {f : Client → Client} (hf : ∀ k : Client, k.Quiet (f k)) :
    Sourced Γ L (w.modify c f) :=
  h.modify (hf _).keepsSource

theorem send (h : Sourced Γ L w) {m : Message} (hm : Γ.Told L m) :
    Sourced Γ L (w.modify c (·.log (.sendMessage m))) :=
  h.modify (Client.keepsSource_send hm _)

theorem connectionClosed (h : Sourced Γ L w) : Sourced Γ L (NodeApp.connectionClosed c w) := by
  obtain ⟨hq, hnext, hnet, happ⟩ := connectionClosed_spec c w
  refine h.of_clients (fun d => (hq d).keepsSource) hnext (by rw [hnet]) (by rw [happ])
    (by rw [happ]) ?_
  rw [happ]
  exact fun p hp => List.mem_of_mem_filter hp

theorem told_greets (h : Sourced Γ L w) (hc : c < w.next) {m : Message} (hm : Greets c w m) :
    Γ.Told L m := by
  rcases hm with rfl | ⟨n, rfl⟩
  · exact fun _ => h.name (Or.inr (Nat.lt_of_le_of_lt (Nat.zero_le c) hc))
  · trivial

/-- The peer a handshake was accepted from has an address libuv reported. -/
theorem handshaken (h : Sourced Γ L w) (hc : c < w.next)
    (hconn : isPeerConnected w (w.clients c).myPeerAddr false = true) :
    Γ.Reported (w.clients c).myPeerAddr := by
  obtain ⟨p, hp, hin, hm⟩ := isPeerConnected_iff.mp hconn
  unfold PeerInfo.matches at hm
  cases hd : p.myClient with
  | none => rw [hd] at hm; cases hm
  | some d =>
    rw [hd, Bool.or_eq_true, decide_eq_true_eq, decide_eq_true_eq] at hm
    -- an incoming entry matches by the address libuv reported or by the canonical one
    rcases hm with haddr | hcanon
    · exact haddr ▸ h.incoming p hp hin d hd
    · rcases h.canonical d (h.exist p hp d hd) with hnil | hhost
      · rw [hnil] at hcanon
        exact absurd hcanon.symm (h.peerAddr c hc)
      · exact hcanon ▸ hhost.reported

/-- What is gossiped is the canonical address of somebody. -/
theorem connectedPeers (h : Sourced Γ L w) {e : Endpoint} (he : e ∈ getConnectedPeers uv w) :
    Γ.known e.myHost e.myPort := by
  obtain ⟨k, hk, rfl⟩ := List.mem_map.mp he
  rcases (SortedMap.mem_keys_collect _ () _ k).mp hk with hk | hk
  · obtain ⟨p, hp, hcanon⟩ := List.mem_filterMap.mp hk
    obtain ⟨d, hd, -, rfl, hne⟩ := connectedCanon_eq_some hcanon
    rcases h.canonical d (h.exist p hp d hd) with hnil | hhost
    · exact absurd hnil hne
    · exact hhost.known
  · exact absurd hk (by simp)

/-- The table of candidates, rewritten. -/
theorem of_cands (h : Sourced Γ L w) {a : NodeApp} (hname : a.myName = w.app.myName)
    (hpeers : a.myPeers = w.app.myPeers)
    (hcands : ∀ key i, a.myPeerCands.find? key = some i → Γ.known i.myHost i.myPort) :
    Sourced Γ L { w with app := a } where
  name hn := by
    show TellsPort L a.myName
    rw [hname]
    exact h.name hn
  cands := hcands
  exist p hp := h.exist p (hpeers ▸ hp)
  dialled := h.dialled
  peerAddr := h.peerAddr
  incoming p hp := h.incoming p (hpeers ▸ hp)
  canonical := h.canonical
  canonTold := h.canonTold
  sent := h.sent

theorem addOutPeerCandidate (h : Sourced Γ L w) {host : Str} {port : Int32}
    (hknown : Γ.known host port) (toTry : Int) :
    Sourced Γ L { w with app := w.app.addOutPeerCandidate host port toTry } := by
  unfold NodeApp.addOutPeerCandidate
  dsimp only
  split
  · refine h.of_cands rfl rfl fun key i hi => ?_
    rw [SortedMap.find?_modify] at hi
    split at hi
    · obtain ⟨i₀, hi₀, rfl⟩ := Option.map_eq_some_iff.mp hi
      exact h.cands key i₀ hi₀
    · exact h.cands key i hi
  · refine h.of_cands rfl rfl fun key i hi => ?_
    rw [SortedMap.find?_insert] at hi
    split at hi
    · rw [← Option.some.inj hi]
      exact hknown
    · exact h.cands key i hi

theorem modifyCand (h : Sourced Γ L w) (key : Str) {f : PeerCandidateInfo → PeerCandidateInfo}
    (hf : ∀ i, (f i).myHost = i.myHost ∧ (f i).myPort = i.myPort) :
    Sourced Γ L (NodeApp.modifyCand key f w) := by
  refine h.of_cands rfl rfl fun key' i hi => ?_
  rw [SortedMap.find?_modify] at hi
  split at hi
  · obtain ⟨i₀, hi₀, rfl⟩ := Option.map_eq_some_iff.mp hi
    rw [(hf i₀).1, (hf i₀).2]
    exact h.cands key' i₀ hi₀
  · exact h.cands key' i hi

/-- A new client, appended to the list of peers. -/
theorem append (h : Sourced Γ L w) (hname : TellsPort L w.app.myName) {k : Client} (out : Bool)
    (hdialled : k.kind ≠ .netClientIn → Γ.known k.myHost k.myPort) (haddr : k.myPeerAddr ≠ [])
    (hin : out = false → Γ.Reported k.myPeerAddr) (hcanon : k.myCanonPeerAddr = [])
    (hacts : ∀ m, Act.sendMessage m ∉ k.acts) :
    Sourced Γ L { w.create k with
      app := { w.app with myPeers := w.app.myPeers ++ [⟨some w.next, out⟩] } } := by
  have hat : ∀ J : Client → Prop, J k → (∀ c < w.next, J (w.clients c)) →
      ∀ c < w.next + 1, J ((w.create k).clients c) := by
    intro J hk hold c hc
    rcases Nat.lt_succ_iff_lt_or_eq.mp hc with hlt | rfl
    · rw [World.clients_create_ne w k (Nat.ne_of_lt hlt)]
      exact hold c hlt
    · rw [World.clients_create_next]
      exact hk
  refine ⟨fun _ => hname, h.cands, fun p hp c hc => ?_,
    hat (fun k => k.kind ≠ .netClientIn → Γ.known k.myHost k.myPort) hdialled h.dialled,
    hat (fun k => k.myPeerAddr ≠ []) haddr h.peerAddr, fun p hp hout c hc => ?_,
    hat (fun k => k.myCanonPeerAddr = [] ∨ Γ.Canonical k.myCanonPeerAddr) (Or.inl hcanon)
      h.canonical, hat Client.CanonTold (fun _ => Or.inl hcanon) h.canonTold, fun c m hm => ?_⟩
  · rcases List.mem_append.mp hp with hp | hp
    · exact Nat.lt_succ_of_lt (h.exist p hp c hc)
    · rw [List.mem_singleton.mp hp, Option.some.injEq] at hc
      exact hc ▸ Nat.lt_succ_self _
  · show Γ.Reported ((w.create k).clients c).myPeerAddr
    rcases List.mem_append.mp hp with hp | hp
    · rw [World.clients_create_ne w k (Nat.ne_of_lt (h.exist p hp c hc))]
      exact h.incoming p hp hout c hc
    · rw [List.mem_singleton.mp hp, Option.some.injEq] at hc
      rw [List.mem_singleton.mp hp] at hout
      subst hc
      rw [World.clients_create_next]
      exact hin hout
  · change Act.sendMessage m ∈ ((w.create k).clients c).acts at hm
    by_cases hc : c = w.next
    · subst hc
      rw [World.clients_create_next] at hm
      exact absurd hm (hacts m)
    · rw [World.clients_create_ne w k hc] at hm
      exact h.sent c m hm

theorem tryCandidate (h : Sourced Γ L w) (hs : StartedOn L w) (key : Str) :
    Sourced Γ L (tryCandidate uv w key) := by
  have hname : TellsPort L w.app.myName := hs.elim (fun hnext => h.name (Or.inr hnext)) id
  have htry := h.modifyCand key (f := PeerCandidateInfo.tried) fun _ => ⟨rfl, rfl⟩
  have happended : ∀ i, w.app.myPeerCands.find? key = some i →
      Sourced Γ L (connect uv w.next (NodeApp.appendOut i.myHost i.myPort
        (NodeApp.modifyCand key PeerCandidateInfo.tried w))).1 := by
    intro i hfind
    have hnew := htry.append hname (k := PeerClientOut.new i.myHost i.myPort) true
      (fun _ => h.cands key i hfind) (by simp [PeerClientOut.new, NetClientOut.new])
      (fun hout => by cases hout) rfl fun _ hm => by cases hm
    rcases connect_cases uv w.next (NodeApp.appendOut i.myHost i.myPort
        (NodeApp.modifyCand key PeerCandidateInfo.tried w)) with ⟨-, heq⟩ | ⟨-, res, heq⟩
    · rw [heq]
      exact hnew
    · rw [heq]
      refine hnew.quiet fun k => ?_
      obtain ⟨b, hb⟩ := k.dial_eq res
      rw [hb]
      exact (Client.Quiet.log (a := .connectCall) rfl k).trans
        ((Client.Quiet.setState .connecting _).trans (.silent rfl))
  have hround := round_tryCandidate uv w key
  generalize NodeApp.tryCandidate uv w key = w' at hround ⊢
  cases hround with
  | skipped => exact h
  | self => exact htry.modifyCand key (f := PeerCandidateInfo.connected) fun _ => ⟨rfl, rfl⟩
  | attempted i hfind =>
    exact (happended i hfind).modifyCand key (f := PeerCandidateInfo.connected) fun _ => ⟨rfl, rfl⟩
  | failed i hfind => exact happended i hfind

theorem addStartCandidates (h : Sourced Γ L w) {params : AppParams} (hp : Γ.Allows params) :
    Sourced Γ L { w with app := w.app.addStartCandidates params.extraPeers } := by
  unfold NodeApp.addStartCandidates
  refine extraPeers_preserve (I := fun a => Sourced Γ L { w with app := a }) (fun p hm a ha => ?_)
    ((h.addOutPeerCandidate Γ.builtIn.1 1).addOutPeerCandidate Γ.builtIn.2 1)
  obtain ⟨hm, hlen⟩ := List.mem_filter.mp hm
  exact ha.addOutPeerCandidate (hp p hm (of_decide_eq_true hlen)) 1000000

end Sourced

/-- **A node that is told only what is in the account** tells nothing else. -/
theorem guarded_sourced {Γ : Rumours} {L : Int32 → Prop} {uv : Uv} (hcov : Γ.Covers uv) :
    GuardedNode uv (Γ.Told Γ.listened) Γ.Allows L (Sourced Γ L) where
  quiet _ hf h := h.quiet hf
  connectionClosed _ h := h.connectionClosed
  greets hc hm h := h.send (h.told_greets hc hm)
  handshakeResponse _ h := h.send trivial
  pingResponse _ _ h := h.send trivial
  otherPeer _ h₀ he h := h.send (h₀.connectedPeers he)
  canonical {w₀ w c v y a port} hm hcolon hport hc₀ _ h₀ hconn haddr hgiven h := by
    have hhost := (h₀.handshaken hc₀ hconn).host
    refine h.modify ⟨rfl, rfl, rfl, rfl,
      Or.inr ⟨_, _, hhost, Γ.announced hhost ((hm hcolon).port hport), rfl⟩,
      fun _ _ => Or.inr ⟨v, y, port, ?_, ?_⟩, fun _ hm => Or.inl hm⟩
    · obtain ⟨port', -, ha⟩ := hm hcolon
      rw [ha, List.drop_succ_cons, List.drop_zero, stoi_stdToString] at hport
      rw [← Except.ok.inj hport, ← ha]
      exact hgiven
    · rw [← haddr]
  canonicalCandidate hm hcolon hport hc₀ h₀ hconn h :=
    h.addOutPeerCandidate
      (Γ.announced (h₀.handshaken hc₀ hconn).host ((hm hcolon).port hport)) 1
  candidate hm h := h.addOutPeerCandidate hm 1
  tryCandidate hs h := h.tryCandidate hs _
  established {w c} hc hkind h := by
    refine h.modify ?_
    have hstate : ∀ k : Client, k.KeepsSource Γ L (k.setState .connected) := fun k =>
      (Client.Quiet.setState .connected k).keepsSource
    unfold Client.establish
    dsimp only
    split
    · have hknown := Γ.resolved (h.dialled c hc hkind) (hcov c (w.clients c).tcp.handle)
      exact ⟨rfl, rfl, rfl, rfl, Or.inr ⟨_, _, hcov c _, hknown, rfl⟩,
        fun _ hin => absurd hin hkind, (hstate (w.clients c)).sent⟩
    · exact hstate _
  buffer _ _ h := h.modify ⟨rfl, rfl, rfl, rfl, Or.inl rfl, id, fun _ hm => Or.inl hm⟩
  handed _ _ h := h.modify ⟨rfl, rfl, rfl, rfl, Or.inl rfl,
    fun ht => ht.kept rfl rfl rfl fun _ ha => List.mem_append_left _ (List.mem_append_left _ ha),
    fun m hm => Or.inl (by simpa [Client.handOver, Client.log, Client.setState] using hm)⟩
  accepted hl h :=
    h.append (h.name (Or.inl hl)) false (fun hk => absurd rfl hk)
      (by simp [NetClientIn.new, getRemoteAddress, Client.setState, Client.setUvStream])
      (fun _ => ⟨_, _, hcov _ 1, rfl⟩) rfl
      (by simp [NetClientIn.new, Client.setState, Client.setUvStream])
  named _ hport h := ⟨fun _ => ⟨_, hport, rfl⟩, h.cands, h.exist, h.dialled, h.peerAddr,
    h.incoming, h.canonical, h.canonTold, h.sent⟩
  net hl h := h.of_clients (fun _ => (Client.Quiet.silent rfl).keepsSource) rfl hl rfl rfl
    fun _ hp => hp
  started hp h := h.addStartCandidates hp

theorem sourced_init (Γ : Rumours) (L : Int32 → Prop) : Sourced Γ L NodeWorld.init where
  name h := by simp [NodeWorld.init, World.init] at h
  cands _ _ h := by cases h
  exist _ h := by cases h
  dialled _ h := absurd h (Nat.not_lt_zero _)
  peerAddr _ h := absurd h (Nat.not_lt_zero _)
  incoming _ h := by cases h
  canonical _ h := absurd h (Nat.not_lt_zero _)
  canonTold _ h := absurd h (Nat.not_lt_zero _)
  sent _ _ h := by cases h

end TcpUv
