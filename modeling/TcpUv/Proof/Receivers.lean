import TcpUv.Proof.Ownership
import TcpUv.Proof.Spurious
import TcpUv.Proof.Wire

/-!
# Receivers

What the three programs make of a stream. The client program and the server take every message,
so for them a stream comes to the same however it is cut, and what one end sends the other end
gets. A node throws on some (`threw_messageReceived`), and an exception that leaves
`messageReceived` takes the rest of the stream with it: the lines that were read with that one
stay in the buffer, and nobody reads the others.

Which messages these are depends on the incoming entries and on the address of the peer. Serving
a connection changes neither (`AtWork`), so it can be read off the node before the first byte.
-/

set_option autoImplicit false

namespace TcpUv

open Lib NodeApp

/-! ## A node at work -/

/-- A node at work on one connection: nobody else's client moves, the incoming entries stay, and
    the connection keeps its address. -/
structure AtWork (c : ClientId) (w w' : NodeWorld) : Prop where
  next : w.next ≤ w'.next
  others : ∀ d, d ≠ c → d < w.next → w'.clients d = w.clients d
  inward : inPeers w' = inPeers w
  calm : (w.clients c).Calm (w'.clients c)

namespace AtWork

variable {uv : Uv} {c : ClientId} {w w' : NodeWorld}

theorem refl (c : ClientId) (w : NodeWorld) : AtWork c w w :=
  ⟨le_rfl, fun _ _ _ => rfl, rfl, .refl _⟩

theorem modify {f : Client → Client} (hf : (w'.clients c).Calm (f (w'.clients c)))
    (h : AtWork c w w') : AtWork c w (w'.modify c f) where
  next := h.next
  others d hd hlt := (World.clients_modify_ne w' f hd).trans (h.others d hd hlt)
  inward := h.inward
  calm := by
    rw [World.clients_modify_self]
    exact h.calm.trans hf

theorem candidate (host : Str) (port : Int32) (h : AtWork c w w') :
    AtWork c w { w' with app := w'.app.addOutPeerCandidate host port 1 } := by
  refine ⟨h.next, h.others, Eq.trans ?_ h.inward, h.calm⟩
  unfold inPeers addOutPeerCandidate
  dsimp only
  split <;> rfl

/-- An attempt appends an outgoing entry, of a client that is new. -/
theorem tryCandidate (hc : c < w.next) (key : Str) (h : AtWork c w w') :
    AtWork c w (tryCandidate uv w' key) where
  next := h.next.trans (next_tryCandidate uv w' key)
  others d hd hlt := (clients_tryCandidate uv (Nat.lt_of_lt_of_le hlt h.next) key).trans
    (h.others d hd hlt)
  inward := (Served.inPeers_tryCandidate uv w' key).trans h.inward
  calm := by
    rw [clients_tryCandidate uv (Nat.lt_of_lt_of_le hc h.next) key]
    exact h.calm

/-- Serving a connection is work on it. -/
theorem standing (hc : c < w.next) (ha : (w.clients c).Attached) :
    Standing uv c (AtWork c w) := by
  have hcalm : CalmApp uv c (AtWork c w) :=
    NodeApp.calmApp (fun h => h.calm.attached ha) (fun hf h => h.modify hf)
      (fun host port h => h.candidate host port) fun key h => h.tryCandidate hc key
  exact ⟨fun _ h => hcalm.still rfl rfl rfl rfl rfl h,
    fun _ h => hcalm.move ((Client.Calm.setState .received _).trans (.log (by simp) _)) h,
    fun m h => hcalm.messageReceived m h, fun h => hcalm.process h⟩

/-- Whom the node finds in its list for the peer stays what it was: an entry of the connection's
    own answers to its address before and after, and those of others are untouched. -/
theorem throwsOn (h : AtWork c w w') (hin : InwardIn w) (m : Message) :
    TcpUv.throwsOn w' c m = TcpUv.throwsOn w c m := by
  have hconn : isPeerConnected w' (w.clients c).myPeerAddr false =
      isPeerConnected w (w.clients c).myPeerAddr false := by
    refine isPeerConnected_inward h.inward fun p hp => ?_
    unfold PeerInfo.matches
    cases hd : p.myClient with
    | none => rfl
    | some d =>
      dsimp only
      by_cases hself : d = c
      · subst hself
        rw [h.calm.myPeerAddr]
        simp
      · rw [h.others d hself (hin p hp d hd).1]
  cases m with
  | handshake myVersion yourAddr myAddr =>
    unfold TcpUv.throwsOn
    rw [h.calm.myPeerAddr, hconn]
  | _ => rfl

end AtWork

/-! ## What a node throws on -/

/-- A message on which the node throws: a handshake of its own version, from a client whose address
    an incoming entry answers to, that reports a colon and then a text `stoi` rejects. -/
def Rejects (w : NodeWorld) (c : ClientId) (m : Message) : Prop :=
  m.SpeaksV01 ∧ throwsOn w c m = true

theorem not_rejects {w : NodeWorld} {c : ClientId} {m : Message} (h : throwsOn w c m = false) :
    ¬ Rejects w c m := fun hm => by
  rw [hm.2] at h
  cases h

section

variable {uv : Uv} {r : NodeWorld} (hr : NodeReachable uv r) {c : ClientId}

include hr

theorem rejects_iff_throwsIn (m : Message) :
    Rejects r c m ↔ ThrowsIn uv c (AtWork c r) m := by
  have hin := (peerKinds_reachable hr).inward
  constructor
  · rintro ⟨hspeaks, hthrows⟩ w hw
    exact (threw_messageReceived uv c m w).mpr ⟨hspeaks, (hw.throwsOn hin m).trans hthrows⟩
  · intro h
    exact (threw_messageReceived uv c m r).mp (h r (.refl c r))

/-- A message the node does not reject it takes, whatever came before it on the connection. -/
theorem takesIn_of_not_rejects {m : Message} (h : ¬ Rejects r c m) :
    TakesIn uv c (AtWork c r) m := by
  have hin := (peerKinds_reachable hr).inward
  intro w hw
  have hreturns : ¬ (NodeApp.messageReceived uv c m w).threw = true := fun hthrew => by
    obtain ⟨hspeaks, hthrows⟩ := (threw_messageReceived uv c m w).mp hthrew
    exact h ⟨hspeaks, (hw.throwsOn hin m).symm.trans hthrows⟩
  show ∃ w', NodeApp.messageReceived uv c m w = .returns w'
  cases hend : NodeApp.messageReceived uv c m w with
  | returns w' => exact ⟨w', rfl⟩
  | throws e w' => exact absurd (by rw [hend]; rfl) hreturns

/-- **A node receives a stream** exactly if it rejects none of its messages. -/
theorem node_receives_iff (chunks : List Str) (hc : c < r.next)
    (hleft : '\n' ∉ (r.clients c).myReceiveBuffer) (hne : ∀ chunk ∈ chunks, chunk ≠ [])
    (hclean : CleanLines ((r.clients c).myReceiveBuffer ++ chunks.flatten)) :
    Receives uv c r chunks (requests ((r.clients c).myReceiveBuffer ++ chunks.flatten))
        (segments '\n' ((r.clients c).myReceiveBuffer ++ chunks.flatten)).2 ↔
      ∀ m ∈ requests ((r.clients c).myReceiveBuffer ++ chunks.flatten), ¬ Rejects r c m := by
  obtain ⟨es, hv, rfl⟩ := hr
  have hr : NodeReachable uv ((nodeSystem uv).run NodeWorld.init es) := ⟨es, hv, rfl⟩
  have ha := (nodeOwned_run hv).attached c hc
  refine (receives_iff (AtWork.standing hc ha) (.refl c _) hc hleft hne hclean
    fun m _ => ?_).trans ?_
  · by_cases hm : Rejects ((nodeSystem uv).run NodeWorld.init es) c m
    · exact .inr ((rejects_iff_throwsIn hr m).mp hm)
    · exact .inl (takesIn_of_not_rejects hr hm)
  · exact forall₂_congr fun m _ => not_congr (rejects_iff_throwsIn hr m).symm

end

/-! ## Both ends -/

/-- **Wire fidelity.** What an open connection writes for a list of messages with word fields, cut
    into reads in any way, hands the app at the other end exactly these messages, in order, and
    leaves its buffer empty: always if that end is a client program or a server, for any app
    that returns from each of them, and for a node if and only if it rejects none. -/
theorem wire_fidelity_iff {τ : Type} [BaseApp τ] {uvS : Uv} {d : ClientId} {s : World τ}
    {ms : List Message} {frames chunks : List Str}
    (hwf : ∀ m ∈ ms, m.WF) (hlen : ∀ m ∈ ms, (frame m).length < 2 ^ 31)
    (hopen : (s.clients d).IsOpen) (hok : ∀ k, uvS.write d k = 0)
    (hframes : ((sendMessages uvS d ms s).clients d).written = (s.clients d).written ++ frames)
    (hchunks : chunks.flatten = frames.flatten) (hne : ∀ chunk ∈ chunks, chunk ≠ []) :
    (∀ (uv : Uv) (c : ClientId) (r : World ClientApp), c < r.next →
      (r.clients c).myReceiveBuffer = [] → Receives uv c r chunks ms []) ∧
    (∀ (uv : Uv) (c : ClientId) (r : World ServerApp), c < r.next →
      (r.clients c).myReceiveBuffer = [] → Receives uv c r chunks ms []) ∧
    (∀ (σ : Type) [App σ] [KeepsInbox σ] (uv : Uv) (c : ClientId) (r : World σ), c < r.next →
      (r.clients c).myReceiveBuffer = [] → (∀ m ∈ ms, Takes (σ := σ) uv c m) →
      Receives uv c r chunks ms []) ∧
    ∀ (uv : Uv) (c : ClientId) (r : NodeWorld), NodeReachable uv r → c < r.next →
      (r.clients c).myReceiveBuffer = [] →
      (Receives uv c r chunks ms [] ↔ ∀ m ∈ ms, ¬ Rejects r c m) := by
  have hstream := stream_of_written hwf hlen hopen hok hframes hchunks
  refine ⟨fun uv c r hc hempty => ?_, fun uv c r hc hempty => ?_, fun σ _ _ uv c r hc hempty happ =>
    ?_, fun uv c r hr hc hempty => ?_⟩
  · exact wire_fidelity hstream hne hc hempty fun m _ => takes_clientApp uv c m
  · exact wire_fidelity hstream hne hc hempty fun m _ => takes_serverApp uv c m
  · exact wire_fidelity hstream hne hc hempty happ
  · obtain ⟨rfl, hrest, hclean⟩ := hstream
    have hreceives := node_receives_iff hr chunks hc (by simp [hempty]) hne
      (by simpa [hempty] using hclean)
    rwa [hempty, List.nil_append, hrest] at hreceives

/-- A node with one accepted connection, its client 1. -/
def accepting : NodeWorld :=
  (nodeSystem Uv.cooperative).run NodeWorld.init
    [.start { listenPort := 5000, listenPortRange := 5 }, .newConnection 0 0]

theorem accepting_reachable : NodeReachable Uv.cooperative accepting := ⟨_, by decide, rfl⟩

/-- Three messages, the first with a port the node takes, cut in the middle of each. -/
theorem wire_fidelity_cut :
    Receives (σ := Script) Uv.cooperative 0 (onNewConnection Uv.cooperative 0 0 (World.init {}))
      ["HANDSH V0".toList, "1 a :5002\nPING h".toList, "i\nOPEER 10.0.0.1 -50".toList,
        "1\n".toList]
      [.handshake textV01 ['a'] ":5002".toList, .ping ['h', 'i'],
        .otherPeer "10.0.0.1".toList (-501)] [] ∧
    Receives Uv.cooperative 1 accepting
      ["HANDSH V0".toList, "1 a :5002\nPING h".toList, "i\nOPEER 10.0.0.1 -50".toList,
        "1\n".toList]
      [.handshake textV01 ['a'] ":5002".toList, .ping ['h', 'i'],
        .otherPeer "10.0.0.1".toList (-501)] [] := by
  have hframes : ((sendMessages Uv.cooperative 0
      [.handshake textV01 ['a'] ":5002".toList, .ping ['h', 'i'],
        .otherPeer "10.0.0.1".toList (-501)]
      (onNewConnection (σ := Script) Uv.cooperative 0 0 (World.init {}))).clients 0).written =
        [] ++ ["HANDSH V01 a :5002\n".toList, "PING hi\n".toList, "OPEER 10.0.0.1 -501\n".toList] :=
    by decide
  have hchunks : ["HANDSH V0".toList, "1 a :5002\nPING h".toList, "i\nOPEER 10.0.0.1 -50".toList,
      "1\n".toList].flatten =
      ["HANDSH V01 a :5002\n".toList, "PING hi\n".toList, "OPEER 10.0.0.1 -501\n".toList].flatten :=
    by decide
  have htaken : ∀ m ∈ [.handshake textV01 ['a'] ":5002".toList, .ping ['h', 'i'],
      .otherPeer "10.0.0.1".toList (-501)], throwsOn accepting 1 m = false := by decide
  have hsent := wire_fidelity_iff (by decide) (by decide) ⟨by decide, by decide⟩ (fun _ => rfl)
    hframes hchunks (by decide)
  exact ⟨hsent.2.2.1 Script _ _ _ (by decide) (by decide) fun m _ => takes_script _ _ m,
    (hsent.2.2.2 _ _ _ accepting_reachable (by decide) (by decide)).mpr fun m hm =>
      not_rejects (htaken m hm)⟩

/-- The peer that was accepted sends a handshake with the address `:x`, and a ping. The handshake
    is answered, then the exception leaves the read: the ping is never handed over. -/
theorem wire_unfaithful :
    (∀ m ∈ [.handshake textV01 ['a'] [':', 'x'], .ping ['y']], Message.WF m) ∧
    ((sendMessages Uv.cooperative 0 [.handshake textV01 ['a'] [':', 'x'], .ping ['y']]
      (onNewConnection (σ := Script) Uv.cooperative 0 0 (World.init {}))).clients 0).written =
        ["HANDSH V01 a :x\n".toList, "PING y\n".toList] ∧
    NodeReachable Uv.cooperative accepting ∧ (accepting.clients 1).myReceiveBuffer = [] ∧
    ¬ Receives Uv.cooperative 1 accepting ["HANDSH V01 a :x\n".toList, "PING y\n".toList]
      [.handshake textV01 ['a'] [':', 'x'], .ping ['y']] [] ∧
    ((onReads Uv.cooperative 1 ["HANDSH V01 a :x\n".toList, "PING y\n".toList]
      accepting).world.clients 1).delivered = [.handshake textV01 ['a'] [':', 'x']] ∧
    Act.closeCall ∉ ((onReads Uv.cooperative 1 ["HANDSH V01 a :x\n".toList, "PING y\n".toList]
      accepting).world.clients 1).acts := by
  refine ⟨by decide, by decide, accepting_reachable, by decide, ?_, by decide, by decide⟩
  rintro ⟨w', hw', -, -⟩
  have hthrew : (onReads Uv.cooperative 1 ["HANDSH V01 a :x\n".toList, "PING y\n".toList]
      accepting).threw = true := by decide
  rw [hw'] at hthrew
  cases hthrew

/-! ## Two segmentations -/

/-- **Framing is independent of segmentation**: two ways of cutting the same bytes into reads hand
    over the same messages and leave the same buffer, the parseable lines of the stream in order
    and the bytes after the last terminator. Again always at a client program and at a server,
    for any app that returns from each message, and at a node if and only if it rejects none. -/
theorem onReads_segmentation_iff {b : Str} {chunks chunks' : List Str}
    (hb : chunks.flatten = b) (hne : ∀ chunk ∈ chunks, chunk ≠ [])
    (hb' : chunks'.flatten = b) (hne' : ∀ chunk ∈ chunks', chunk ≠ []) :
    (∀ (uv : Uv) (c : ClientId) (w : World ClientApp), Feedable c w b →
      SameFraming uv c w b chunks chunks') ∧
    (∀ (uv : Uv) (c : ClientId) (w : World ServerApp), Feedable c w b →
      SameFraming uv c w b chunks chunks') ∧
    (∀ (σ : Type) [App σ] [KeepsInbox σ] (uv : Uv) (c : ClientId) (w : World σ), Feedable c w b →
      (∀ m ∈ requests ((w.clients c).myReceiveBuffer ++ b), Takes (σ := σ) uv c m) →
      SameFraming uv c w b chunks chunks') ∧
    ∀ (uv : Uv) (c : ClientId) (w : NodeWorld), NodeReachable uv w → Feedable c w b →
      (SameFraming uv c w b chunks chunks' ↔
        ∀ m ∈ requests ((w.clients c).myReceiveBuffer ++ b), ¬ Rejects w c m) := by
  refine ⟨fun uv c w h => ?_, fun uv c w h => ?_, fun σ _ _ uv c w h happ => ?_,
    fun uv c w hr h => ?_⟩
  · exact onReads_segmentation h hb hne hb' hne' fun m _ => takes_clientApp uv c m
  · exact onReads_segmentation h hb hne hb' hne' fun m _ => takes_serverApp uv c m
  · exact onReads_segmentation h hb hne hb' hne' happ
  · have hcut : ∀ cut : List Str, cut.flatten = b → (∀ chunk ∈ cut, chunk ≠ []) →
        (Receives uv c w cut (requests ((w.clients c).myReceiveBuffer ++ b))
          (segments '\n' ((w.clients c).myReceiveBuffer ++ b)).2 ↔
        ∀ m ∈ requests ((w.clients c).myReceiveBuffer ++ b), ¬ Rejects w c m) := by
      rintro cut rfl hcut
      exact node_receives_iff hr cut h.client h.leftover hcut h.clean
    rw [sameFraming_iff, List.forall_mem_cons, List.forall_mem_singleton, hcut chunks hb hne,
      hcut chunks' hb' hne', and_self]

/-- A line cut inside its keyword, an empty line, a line the parser rejects, and a handshake whose
    port the node takes. -/
theorem onReads_segmentation_cut :
    SameFraming (σ := Script) Uv.cooperative 0
      (onNewConnection Uv.cooperative 0 0 (World.init {})) "PING a\n\nHANDSH V01 a :7\nxyz".toList
      ["PI".toList, "NG a\n\nHANDSH V01 a :7\nxy".toList, "z".toList]
      ["PING a\n".toList, "\nHANDSH V01 a".toList, " :7\nxyz".toList] ∧
    SameFraming Uv.cooperative 1 accepting "PING a\n\nHANDSH V01 a :7\nxyz".toList
      ["PI".toList, "NG a\n\nHANDSH V01 a :7\nxy".toList, "z".toList]
      ["PING a\n".toList, "\nHANDSH V01 a".toList, " :7\nxyz".toList] := by
  have hno : ∀ line ∈ lines "PING a\n\nHANDSH V01 a :7\nxyz".toList,
      (words line).getD 0 [] ≠ kwOpeer := by decide
  have htaken : ∀ m ∈ requests "PING a\n\nHANDSH V01 a :7\nxyz".toList,
      throwsOn accepting 1 m = false := by decide
  have hcut : ["PI".toList, "NG a\n\nHANDSH V01 a :7\nxy".toList, "z".toList].flatten =
      "PING a\n\nHANDSH V01 a :7\nxyz".toList := by decide
  have hcut' : ["PING a\n".toList, "\nHANDSH V01 a".toList, " :7\nxyz".toList].flatten =
      "PING a\n\nHANDSH V01 a :7\nxyz".toList := by decide
  have hcuts := onReads_segmentation_iff hcut (by decide) hcut' (by decide)
  exact ⟨hcuts.2.2.1 Script _ _ _ ⟨by decide, by decide, by decide,
      fun line hline hop _ => absurd hop (hno line hline)⟩ fun m _ => takes_script _ _ m,
    (hcuts.2.2.2 Uv.cooperative 1 accepting accepting_reachable ⟨by decide, by decide, by decide,
      fun line hline hop _ => absurd hop (hno line hline)⟩).mpr fun m hm =>
        not_rejects (htaken m hm)⟩

/-- The same handshake and ping. In one read the ping stays in the buffer, in two it never gets
    there: the process ends at the first line either way. -/
theorem segmentation_matters :
    NodeReachable Uv.cooperative accepting ∧
    Feedable 1 accepting "HANDSH V01 a :x\nPING y\n".toList ∧
    ¬ SameFraming Uv.cooperative 1 accepting "HANDSH V01 a :x\nPING y\n".toList
      ["HANDSH V01 a :x\nPING y\n".toList] ["HANDSH V01 a :x\n".toList, "PING y\n".toList] ∧
    ((onReads Uv.cooperative 1 ["HANDSH V01 a :x\nPING y\n".toList]
      accepting).world.clients 1).inbox =
      ("PING y\n".toList, [.handshake textV01 ['a'] [':', 'x']]) ∧
    ((onReads Uv.cooperative 1 ["HANDSH V01 a :x\n".toList, "PING y\n".toList]
      accepting).world.clients 1).inbox = ([], [.handshake textV01 ['a'] [':', 'x']]) ∧
    ∀ cut ∈ [["HANDSH V01 a :x\nPING y\n".toList],
        ["HANDSH V01 a :x\n".toList, "PING y\n".toList]],
      Act.closeCall ∉ ((onReads Uv.cooperative 1 cut accepting).world.clients 1).acts := by
  have hno : ∀ line ∈ lines "HANDSH V01 a :x\nPING y\n".toList,
      (words line).getD 0 [] ≠ kwOpeer := by decide
  refine ⟨accepting_reachable, ⟨by decide, by decide, by decide,
    fun line hline hop _ => absurd hop (hno line hline)⟩, ?_, by decide, by decide, by decide⟩
  rintro ⟨w₁, w₂, hw₁, -⟩
  have hthrew : (onReads Uv.cooperative 1 ["HANDSH V01 a :x\nPING y\n".toList]
      accepting).threw = true := by decide
  rw [hw₁] at hthrew
  cases hthrew

end TcpUv
