import TcpUv.Proof.CloseOnce
import TcpUv.Proof.ConnRules
import TcpUv.Proof.NodeWire

/-!
# What holds of every connection

Properties of a single connection, carried by `ConnRule` to every connection of the three
programs: it is closed once (`closed_once_programs`), and what it puts on its stream are the
frames of the messages it was given, in order and none left out, for as long as it holds the
stream (`streamed_programs`). A connection that was closed may come back to life when more
messages are in the buffer; what it is given then is not put on any stream.

With what a node may say (`CleanNode`) this gives the lines it writes: each is one message, and
parses back to it (`sentMessage_framed`).
-/

set_option autoImplicit false

namespace TcpUv

open Lib

/-! ## Closed once -/

/-- The history of an outgoing connection that was told to connect. -/
theorem acts_dial {k : Client} (h : k.acts = []) (res : Int) :
    (k.dial res).acts = [.connectCall, .state .connecting] := by
  obtain ⟨b, hb⟩ := k.dial_eq res
  rw [hb]
  show k.dialled.acts = _
  rw [Client.acts_dialled, h, List.nil_append]

namespace CloseInv

variable {k : Client}

theorem dial (h : k.acts = []) (res : Int) : CloseInv (k.dial res) := by
  refine ⟨.fresh, ?_, ?_⟩
  · rw [acts_dial h]
    rfl
  · obtain ⟨b, hb⟩ := k.dial_eq res
    rw [hb]
    exact ⟨rfl, rfl⟩

theorem retire (held : Bool) (ha : Callback.closed.allowed k) (h : CloseInv k) :
    CloseInv (k.retire held) := by
  obtain ⟨hcl, hcd, -, -⟩ := ha
  obtain ⟨q, hrun, hok⟩ := h
  cases q with
  -- a close is reported once, and only after it was requested
  | fresh => exact absurd (hok.1.symm.trans hcl) (by simp)
  | shut => exact absurd (hok.1.symm.trans hcl) (by simp)
  | requested =>
    have hs := hok.2.2.1
    cases held with
    | true =>
      refine extend .deleted hrun
        (l := [.connectionClosed, .destructor, .deleteHandle, .state .closed]) ?_ rfl ⟨hcl, rfl, hs⟩
      simp [Client.retire, Client.setState, Client.log]
    | false =>
      refine extend .deleted hrun (l := [.connectionClosed, .deleteHandle, .state .closed]) ?_ rfl
        ⟨hcl, rfl, hs⟩
      simp [Client.retire, Client.setState, Client.log]
  | reported => exact absurd hok id
  | deleted => exact absurd (hok.2.1.symm.trans hcd) (by simp)

/-- libuv has not reported the close of a stream that is held. -/
theorem closed_eq_false (h : CloseInv k) (hs : k.myUvStream.isSome = true) :
    k.tcp.closed = false := by
  have hnone : ¬ k.myUvStream = none := Option.isSome_iff_ne_none.mp hs
  obtain ⟨q, -, hok⟩ := h
  cases q with
  | fresh => exact hok.2
  | shut | deleted => exact absurd hok.2.2 hnone
  | requested => exact absurd hok.2.2.1 hnone
  | reported => exact absurd hok id

theorem connRule : ConnRule CloseInv where
  attached h := h.attached
  same hs h := h.same hs
  shut h := h.shut
  send m res h := h.send m res
  violated site h := h.plain (l := [.assertFailed site]) rfl (by simp [Act.isPlain]) rfl rfl rfl
    (Or.inl rfl)
  netClientOut _ _ _ res := dial rfl res
  peerClientOut _ _ res := dial rfl res
  netClientIn _ := ⟨.fresh, rfl, rfl, rfl⟩
  read res h := h.read res
  handOver m h := by
    refine h.plain (l := [.state .received, .messageReceived m]) ?_ (by simp [Act.isPlain]) rfl rfl
      rfl (Or.inr (Client.refuses_of_state .received rfl (by decide)))
    simp [Client.handOver, Client.setState, Client.log]
  bookkeeping hclosing hclosed h :=
    h.plain (l := []) (List.append_nil _).symm (by simp) rfl hclosing hclosed (Or.inl rfl)
  established _ h := h.plain (l := [.state .connected]) rfl (by simp [Act.isPlain]) rfl rfl rfl
    (Or.inr (Client.refuses_of_state .connected rfl (by decide)))
  destroyed h := h.plain (l := [.destructor]) rfl (by simp [Act.isPlain]) rfl rfl rfl (Or.inl rfl)
  retire held ha h := h.retire held ha

end CloseInv

/-- **Every connection of every program is closed once**, whatever its app does and however the
    callbacks of the connections interleave. -/
theorem closed_once_programs (p : Program) {es : List p.Event} (hv : p.system.Valid p.init es) :
    p.EachConn ClosedOnce (p.system.run p.init es) :=
  fun c hc => (CloseInv.connRule.kept.run p hv c hc).closedOnce

/-- A client whose server goes away before the handshake is written. -/
def brokenOff : List ClientEvent :=
  [.newClient textLocalhost 5000 1, .client 0 (.connected 0), .client 0 (.wrote (-32)),
    .client 0 .closed]

theorem valid_brokenOff : (clientSystem .cooperative).Valid (World.init {}) brokenOff := by decide

theorem closed_once_programs_brokenOff :
    ClosedOnce (((clientSystem .cooperative).run (World.init {}) brokenOff).clients 0) :=
  closed_once_programs (.client .cooperative) valid_brokenOff 0 (by decide)

/-! ## What is put on the stream -/

namespace Client

/-- What was put on the stream are the frames of the first messages the connection was given; of
    all of them while it holds the stream. -/
def StreamsSent (k : Client) : Prop :=
  k.streamed <+: k.sent.map frame ∧
    (k.myUvStream.isSome = true → k.streamed = k.sent.map frame)

/-- … and a connection that holds its stream is open. What it handed to libuv, with a stream or
    without, are frames of what it was given. -/
structure Streams (k : Client) : Prop where
  attached : k.Attached
  isOpen : k.myUvStream.isSome = true → k.IsOpen
  streamsSent : k.StreamsSent
  writesSent : k.written.Sublist (k.sent.map frame)

theorem Idle.streamed {k k' : Client} (h : k.Idle k') : k'.streamed = k.streamed :=
  h.filterMap_acts fun a ha => by cases a <;> simp [Act.isIdle, Act.streamedFrame] at ha ⊢

namespace Streams

variable {k k' : Client}

/-- A move after which the stream is the same, and the state one a connection is open in. -/
theorem idle (hi : k.Idle k') (hstream : k'.myUvStream = k.myUvStream)
    (hopen : k'.myUvStream.isSome = true → k'.IsOpen) (h : k.Streams) : k'.Streams where
  attached := hi.attached h.attached
  isOpen := hopen
  streamsSent := by
    unfold StreamsSent
    rw [hi.streamed, hi.sent, hstream]
    exact h.streamsSent
  writesSent := by
    rw [hi.written, hi.sent]
    exact h.writesSent

theorem same (hs : k.SameConn k') (h : k.Streams) : k'.Streams where
  attached hsome := by
    rw [hs.tcp]
    exact h.attached (hs.myUvStream ▸ hsome)
  isOpen hsome := by
    unfold IsOpen
    rw [hs.myState]
    exact h.isOpen (hs.myUvStream ▸ hsome)
  streamsSent := by
    unfold StreamsSent streamed sent
    rw [hs.acts, hs.myUvStream]
    exact h.streamsSent
  writesSent := by
    unfold written sent
    rw [hs.acts]
    exact h.writesSent

theorem shut (h : k.Streams) : k.shut.Streams where
  attached := (Idle.shut k).attached h.attached
  isOpen hsome := by
    rw [myUvStream_shut] at hsome
    cases hsome
  streamsSent := by
    refine ⟨?_, fun hsome => ?_⟩
    · rw [(Idle.shut k).streamed, (Idle.shut k).sent]
      exact h.streamsSent.1
    · rw [myUvStream_shut] at hsome
      cases hsome
  writesSent := by
    rw [(Idle.shut k).written, (Idle.shut k).sent]
    exact h.writesSent

/-- A message handed to libuv, on the stream if there is one. -/
theorem written (m : Message) (res : Int) (h : k.Streams) :
    (((k.log (.sendMessage m)).setState .sending).uvWrite (frame m) res).Streams := by
  have hsent : (((k.log (.sendMessage m)).setState .sending).uvWrite (frame m) res).sent =
      k.sent ++ [m] := by
    simp only [sent, uvWrite, setState, log, List.append_assoc, List.filterMap_append]
    rfl
  have hstreamed : (((k.log (.sendMessage m)).setState .sending).uvWrite (frame m) res).streamed =
      k.streamed ++ if k.myUvStream.isSome = true then [frame m] else [] := by
    simp only [streamed, uvWrite, setState, log, List.append_assoc, List.filterMap_append]
    cases k.myUvStream <;> rfl
  have hwritten : (((k.log (.sendMessage m)).setState .sending).uvWrite (frame m) res).written =
      k.written ++ [frame m] := by
    simp only [Client.written, uvWrite, setState, log, List.append_assoc, List.filterMap_append]
    rfl
  refine ⟨attached_uvWrite h.attached, fun _ => ⟨by simp [uvWrite, setState],
    by simp [uvWrite, setState]⟩, ⟨?_, fun hsome => ?_⟩, ?_⟩
  · rw [hsent, hstreamed, List.map_append]
    -- with a stream it had put everything on it, without one it adds nothing
    split
    · rename_i hsome
      rw [h.streamsSent.2 hsome]
      exact List.prefix_rfl
    · rw [List.append_nil]
      exact h.streamsSent.1.trans (List.prefix_append _ _)
  · have hold : k.myUvStream.isSome = true := hsome
    rw [hsent, hstreamed, if_pos hold, h.streamsSent.2 hold, List.map_append]
    rfl
  · rw [hsent, hwritten, List.map_append]
    exact h.writesSent.append (List.Sublist.refl _)

theorem send (m : Message) (res : Int) (h : k.Streams) : (k.send m res).Streams := by
  unfold Client.send
  split
  · rename_i hclosed
    -- given to a closed connection, which holds no stream: it is not put on any
    have hnone : ¬ k.myUvStream.isSome = true := fun hsome =>
      hclosed.elim (h.isOpen hsome).1 (h.isOpen hsome).2
    have hstreamed : (k.log (.sendMessage m)).streamed = k.streamed := by
      simp only [streamed, log, List.filterMap_append]
      exact List.append_nil _
    have hwritten : (k.log (.sendMessage m)).written = k.written := by
      simp only [Client.written, log, List.filterMap_append]
      exact List.append_nil _
    refine ⟨h.attached, fun hsome => absurd hsome hnone,
      ⟨?_, fun hsome => absurd hsome hnone⟩, ?_⟩
    · rw [sent_log, hstreamed, List.map_append]
      exact h.streamsSent.1.trans (List.prefix_append _ _)
    · rw [sent_log, hwritten, List.map_append]
      exact h.writesSent.trans (List.sublist_append_left _ _)
  · split
    · exact (h.written m res).shut
    · exact h.written m res

theorem read (res : Int) (h : k.Streams) : (k.read res).Streams := by
  have hstarted : ∀ k : Client, k.Streams → ((k.setState .receiving).uvReadStart res).Streams :=
    fun k h => h.idle ((Idle.setState .receiving k).trans (.uvReadStart res _)) rfl
      fun _ => ⟨by simp [uvReadStart, setState], by simp [uvReadStart, setState]⟩
  have hassert : ∀ b : Bool, (k.assert .doRead b).Streams := by
    intro b
    unfold assert
    split
    · exact h
    · exact h.idle (.log rfl k) rfl h.isOpen
  unfold Client.read
  dsimp only
  split
  · exact (hstarted _ (hassert _)).shut
  · exact hstarted _ (hassert _)

/-- A move that neither sends nor writes. -/
theorem silent (h : k.Streams) {l : List Act} (hacts : k'.acts = k.acts ++ l)
    (hl : ∀ a ∈ l, a.sentMessage = none ∧ a.writtenFrame = none)
    (hstream : k'.myUvStream = k.myUvStream) (hclosing : k'.tcp.closing = k.tcp.closing)
    (hopen : k'.myUvStream.isSome = true → k'.IsOpen) : k'.Streams := by
  have hseen : ∀ {β : Type} (f : Act → Option β), (∀ a ∈ l, f a = none) →
      k'.acts.filterMap f = k.acts.filterMap f := fun f hf => by
    rw [hacts, List.filterMap_append, List.filterMap_eq_nil_iff.mpr hf, List.append_nil]
  have hsent : k'.sent = k.sent := hseen _ fun a ha => (hl a ha).1
  have hwritten : k'.written = k.written := hseen _ fun a ha => (hl a ha).2
  -- what is put on a stream is written
  have hstreamed : k'.streamed = k.streamed := hseen _ fun a ha => by
    have hnone := (hl a ha).2
    cases a <;> simp [Act.writtenFrame, Act.streamedFrame] at hnone ⊢
  refine ⟨fun hsome => hclosing.trans (h.attached (hstream ▸ hsome)), hopen, ?_, ?_⟩
  · unfold StreamsSent
    rw [hsent, hstreamed, hstream]
    exact h.streamsSent
  · rw [hsent, hwritten]
    exact h.writesSent

theorem handOver (m : Message) (h : k.Streams) : (k.handOver m).Streams := by
  refine h.silent (l := [.state .received, .messageReceived m]) ?_
    (by simp [Act.sentMessage, Act.writtenFrame]) rfl rfl fun _ => ⟨?_, ?_⟩
  · simp [Client.handOver, log, setState]
  · simp [Client.handOver, log, setState]
  · simp [Client.handOver, log, setState]

/-- libuv reports the close of a handle the connection has given up. -/
theorem retire (held : Bool) (ha : Callback.closed.allowed k) (h : k.Streams) :
    (k.retire held).Streams := by
  have hnone : ¬ k.myUvStream.isSome = true := fun hsome => by
    exact absurd ((h.attached hsome).symm.trans ha.1) (by simp)
  cases held with
  | true =>
    refine h.silent (l := [.connectionClosed, .destructor, .deleteHandle, .state .closed]) ?_
      (by simp [Act.sentMessage, Act.writtenFrame]) rfl rfl fun hsome => absurd hsome hnone
    simp [Client.retire, log, setState]
  | false =>
    refine h.silent (l := [.connectionClosed, .deleteHandle, .state .closed]) ?_
      (by simp [Act.sentMessage, Act.writtenFrame]) rfl rfl fun hsome => absurd hsome hnone
    simp [Client.retire, log, setState]

/-- An attempt to connect has a stream, and nothing on it. -/
theorem dial (hacts : k.acts = []) (res : Int) : (k.dial res).Streams := by
  have hnone : (k.dial res).sent = [] ∧ (k.dial res).streamed = [] ∧ (k.dial res).written = [] := by
    unfold sent streamed Client.written
    rw [acts_dial hacts]
    exact ⟨rfl, rfl, rfl⟩
  obtain ⟨b, hb⟩ := k.dial_eq res
  refine ⟨fun _ => by rw [hb]; rfl, fun _ => ?_, ⟨?_, fun _ => ?_⟩, ?_⟩
  · rw [hb]
    exact ⟨by simp [dialled, setUvStream, setState], by simp [dialled, setUvStream, setState]⟩
  · rw [hnone.2.1]
    exact List.nil_prefix
  · rw [hnone.1, hnone.2.1]
    rfl
  · rw [hnone.2.2]
    exact List.nil_sublist _

theorem connRule : ConnRule Streams where
  attached h := h.attached
  same hs h := h.same hs
  shut h := h.shut
  send m res h := h.send m res
  violated site h := h.idle (.log rfl _) rfl h.isOpen
  netClientOut _ _ _ res := dial rfl res
  peerClientOut _ _ res := dial rfl res
  netClientIn _ := ⟨fun _ => rfl, fun _ => ⟨by simp [NetClientIn.new, setState],
    by simp [NetClientIn.new, setState]⟩, ⟨List.nil_prefix, fun _ => rfl⟩, List.nil_sublist _⟩
  read res h := h.read res
  handOver m h := h.handOver m
  bookkeeping hclosing _ h :=
    h.silent (l := []) (List.append_nil _).symm (by simp) rfl hclosing h.isOpen
  established _ h := h.idle (.setState .connected _) rfl fun _ =>
    ⟨by simp [setState], by simp [setState]⟩
  destroyed h :=
    h.silent (l := [.destructor]) rfl (by simp [Act.sentMessage, Act.writtenFrame]) rfl rfl h.isOpen
  retire held ha h := h.retire held ha

end Streams

end Client

/-- **What every connection of every program puts on its stream** is a beginning of what it was
    given to send, and all of it as long as it holds the stream. -/
theorem streamed_programs (p : Program) {es : List p.Event} (hv : p.system.Valid p.init es) :
    p.EachConn Client.StreamsSent (p.system.run p.init es) :=
  fun c hc => (Client.Streams.connRule.kept.run p hv c hc).streamsSent

theorem streamed_programs_brokenOff :
    (((clientSystem .cooperative).run (World.init {}) brokenOff).clients 0).streamed <+:
      [frame (.handshake textV01 "localhost:5000".toList textNone)] :=
  (streamed_programs (.client .cooperative) valid_brokenOff 0 (by decide)).1

/-! ## What is handed to `uv_write` -/

/-- **What every connection of every program hands to `uv_write`**, with a stream or without, are
    frames of messages it was given, in order. -/
theorem written_programs (p : Program) {es : List p.Event} (hv : p.system.Valid p.init es) :
    p.EachConn (fun k => k.written.Sublist (k.sent.map frame)) (p.system.run p.init es) :=
  fun c hc => (Client.Streams.connRule.kept.run p hv c hc).writesSent

/-- **No frame corruption by remote data.** Whatever arrives on any number of connections,
    every message a node passes to `sendMessage` is written as one terminated line, and
    that line parses back to the message. What a connection hands to `uv_write` are these lines. -/
theorem sentMessage_framed {uv : Uv} (hip : uv.IPv4) {es : List NodeEvent}
    (hv : (nodeSystem uv).Valid NodeWorld.init es)
    (hp : ∀ params, .start params ∈ es → ∀ p ∈ params.extraPeers, ∀ ch ∈ p, isspace ch = false)
    {c : ClientId} {m : Message}
    (hm : Act.sendMessage m ∈ (((nodeSystem uv).run NodeWorld.init es).clients c).acts) :
    ((frame m).count '\n' = 1 ∧ (frame m).getLast? = some '\n' ∧
      ∃ line, segments '\n' (frame m) = ([line], []) ∧
        ((frame m).length < 2 ^ 31 → cutLine (frame m) = .ok (some (line, []))) ∧
        parseLine line = .ok (some m)) ∧
    (c < ((nodeSystem uv).run NodeWorld.init es).next →
      (((nodeSystem uv).run NodeWorld.init es).clients c).written.Sublist
        ((((nodeSystem uv).run NodeWorld.init es).clients c).sent.map frame)) := by
  have hclean := (nodeInvariant_cleanNode hip).run hv (fun e he => by
    cases e with
    | start params => exact hp params he
    | _ => trivial) cleanNode_init
  have hwf := hclean.sent c m hm
  obtain ⟨hcount, hlast⟩ := count_newline_frame hwf
  have hno : '\n' ∉ serialize m := newline_not_mem_serialize hwf
  refine ⟨⟨hcount, hlast, serialize m, segments_line hno [], fun hlen => ?_,
    parseLine_serialize hwf⟩, written_programs (.node uv) hv c⟩
  rw [frame, List.length_append, List.length_singleton] at hlen
  exact cutLine_line hno hlen

/-- The first ping of a node that listens on 5000 and reaches its other local candidate. -/
theorem sentMessage_framed_ping :
    ((frame (.ping "Ping_from_:5000_to_localhost:5001_0".toList)).count '\n' = 1 ∧
      (frame (.ping "Ping_from_:5000_to_localhost:5001_0".toList)).getLast? = some '\n' ∧
      ∃ line, segments '\n' (frame (.ping "Ping_from_:5000_to_localhost:5001_0".toList)) =
          ([line], []) ∧
        ((frame (.ping "Ping_from_:5000_to_localhost:5001_0".toList)).length < 2 ^ 31 →
          cutLine (frame (.ping "Ping_from_:5000_to_localhost:5001_0".toList)) =
            .ok (some (line, []))) ∧
        parseLine line = .ok (some (.ping "Ping_from_:5000_to_localhost:5001_0".toList))) ∧
    (((nodeSystem Uv.cooperative).run NodeWorld.init
        [.start { listenPort := 5000, listenPortRange := 5 },
          .client 0 (.connected 0)]).clients 0).written.Sublist
      ((((nodeSystem Uv.cooperative).run NodeWorld.init
        [.start { listenPort := 5000, listenPortRange := 5 },
          .client 0 (.connected 0)]).clients 0).sent.map frame) := by
  have hv : (nodeSystem Uv.cooperative).Valid NodeWorld.init
      [.start { listenPort := 5000, listenPortRange := 5 }, .client 0 (.connected 0)] := by
    decide
  have hframed := fun hp => sentMessage_framed (fun _ _ => rfl) hv hp (c := 0)
    (m := .ping "Ping_from_:5000_to_localhost:5001_0".toList) (by decide)
  refine (hframed fun params hs => ?_).imp id fun h => h (by decide)
  rcases List.mem_cons.mp hs with hs | hs
  · cases hs
    exact fun p hp => nomatch hp
  · exact absurd hs (by simp)

end TcpUv
