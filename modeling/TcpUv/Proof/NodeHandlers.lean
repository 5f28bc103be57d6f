import TcpUv.Proof.Kept
import TcpUv.Proof.NodeTables
import Mathlib.Data.List.Dedup

/-!
# Two handlers of the node

`connectionClosed` and `messageReceived`, each against what is asked of it. Closing a peer
should take the entries of that client out of `myPeers` and no others; the marking pass
matches by identity *or address text*, and the exact condition is that no other entry has
the address (`closed_only_iff`). Handling a message should end normally whatever the
message says; one of the two places that read a port out of a peer's text does it with a
bare `stoi` (`survives_iff`).

Both go through a rule each: `clients_connectionClosed` says what closing leaves of every
client, and `messageReceived_preserves` what a message can do to a node.
-/

set_option autoImplicit false

namespace TcpUv

open Lib NodeApp

/-! ## `connectionClosed` -/

namespace NodeApp

theorem clients_destroyEach : ∀ {ds : List ClientId}, ds.Nodup → ∀ (w : NodeWorld) (d : ClientId),
    (ds.foldl (fun w d => w.modify d destroy) w).clients d =
      if d ∈ ds then destroy (w.clients d) else w.clients d := by
  intro ds
  induction ds with
  | nil => intro _ w d; simp
  | cons e ds ih =>
    intro hnodup w d
    obtain ⟨he, hds⟩ := List.nodup_cons.mp hnodup
    rw [List.foldl_cons, ih hds, World.clients_modify]
    by_cases hd : d = e
    · subst hd
      simp [he]
    · simp [hd]

/-- **What closing leaves of every client**: those of an entry that answers to the address
    are destroyed, the others are as they were. -/
theorem clients_connectionClosed (c : ClientId) (w : NodeWorld) (d : ClientId) :
    (connectionClosed c w).clients d =
      if d ∈ released w c (w.clients c).myPeerAddr then destroy (w.clients d)
      else w.clients d := by
  have heach := clients_destroyEach (List.nodup_dedup (released w c (w.clients c).myPeerAddr)) w d
  simp only [List.mem_dedup] at heach
  exact heach

theorem mem_released {w : NodeWorld} {c d : ClientId} {a : Str} : d ∈ released w c a ↔
    (∃ p ∈ w.app.myPeers, p.myClient = some d) ∧ (d = c ∨ (w.clients d).myPeerAddr = a) := by
  simp [released]

end NodeApp

/-- The list of peers after the marking pass. -/
def markedPeers (c : ClientId) (w : NodeWorld) : List PeerInfo :=
  w.app.myPeers.map (PeerInfo.reset w c (w.clients c).myPeerAddr)

/-- What is asked of the closing of a client: the erase loop ends, however many rounds it is
    allowed, with no null entry left, and what goes is the entries of the client. -/
structure ClosesOnly (c : ClientId) (w : NodeWorld) : Prop where
  ends : ∀ n, (markedPeers c w).length ≤ n →
    eraseDisconnected n (markedPeers c w) = (connectionClosed c w).app.myPeers
  finished : ((connectionClosed c w).app.myPeers.any fun p => p.myClient.isNone) = false
  only : (connectionClosed c w).app.myPeers =
    w.app.myPeers.filter fun p => p.myClient ≠ some c

/-- **Closing one peer.** The loop ends in every case. The entries taken out are the closed
    client's and no others exactly if no other entry has its peer address. -/
theorem closed_only_iff {uv : Uv} {w : NodeWorld} (hw : NodeReachable uv w) (c : ClientId) :
    ClosesOnly c w ↔ ∀ p ∈ w.app.myPeers, p.myClient ≠ some c →
      PeerInfo.peerAddr w p ≠ some (w.clients c).myPeerAddr := by
  have hclient := (peerTables_reachable hw).client
  have hpeers : (connectionClosed c w).app.myPeers = w.app.myPeers.filter (stays w c) := by
    rw [(connectionClosed_spec c w).2.2.2]
  -- on the entry of a client that exists the two tests differ in the address alone
  have hstays : ∀ p ∈ w.app.myPeers, (stays w c p = true ↔
      p.myClient ≠ some c ∧ PeerInfo.peerAddr w p ≠ some (w.clients c).myPeerAddr) := by
    intro p hp
    obtain ⟨d, hd, -⟩ := hclient p hp
    simp [stays, PeerInfo.peerAddr, hd]
  constructor
  · intro h p hp hne haddr
    have hkept : p ∈ w.app.myPeers.filter (stays w c) := by
      rw [← hpeers, h.only]
      exact List.mem_filter.mpr ⟨hp, by simpa using hne⟩
    exact ((hstays p hp).mp (List.mem_filter.mp hkept).2).2 haddr
  · intro hcond
    refine ⟨fun n hn => ?_, ?_, ?_⟩
    · have hlast : (connectionClosed c w).app.myPeers =
          eraseDisconnected (markedPeers c w).length (markedPeers c w) := rfl
      rw [hlast, eraseDisconnected_eq n hn, eraseDisconnected_eq _ le_rfl]
    · rw [hpeers, List.any_eq_false]
      intro p hp
      obtain ⟨d, hd, -⟩ := hclient p (List.mem_of_mem_filter hp)
      simp [hd]
    · rw [hpeers]
      refine List.filter_congr fun p hp => ?_
      by_cases hself : p.myClient = some c
      · have hgoes : ¬ stays w c p = true := fun hs => ((hstays p hp).mp hs).1 hself
        simpa [hself] using hgoes
      · have hstay : stays w c p = true := (hstays p hp).mpr ⟨hself, hcond p hp hself⟩
        simpa [hself] using hstay

/-- A node with an outgoing peer and an accepted one: closing the second leaves the first. -/
theorem closed_only_accepted :
    ClosesOnly 1 ((nodeSystem Uv.cooperative).run NodeWorld.init
      [.start { listenPort := 5000, listenPortRange := 5 }, .newConnection 0 0]) := by
  have hv : (nodeSystem Uv.cooperative).Valid NodeWorld.init
      [.start { listenPort := 5000, listenPortRange := 5 }, .newConnection 0 0] := by decide
  have hw : NodeReachable Uv.cooperative ((nodeSystem Uv.cooperative).run NodeWorld.init
      [.start { listenPort := 5000, listenPortRange := 5 }, .newConnection 0 0]) := ⟨_, hv, rfl⟩
  apply (closed_only_iff hw 1).mpr
  decide

/-- A libuv that cannot name the other end of any socket. -/
def Uv.nameless : Uv := { Uv.cooperative with getpeername := fun _ _ => .error (-107) }

/-- Two accepted connections whose ends cannot be named are both `?:0`; closing one takes
    the other out too. -/
theorem closed_both :
    (nodeSystem Uv.nameless).Valid NodeWorld.init
      [.start { listenPort := 5000, listenPortRange := 5 }, .newConnection 0 0,
        .newConnection 0 0] ∧
    ¬ ClosesOnly 1 ((nodeSystem Uv.nameless).run NodeWorld.init
      [.start { listenPort := 5000, listenPortRange := 5 }, .newConnection 0 0,
        .newConnection 0 0]) := by
  refine ⟨by decide, fun h => absurd h.only ?_⟩
  decide

/-! ## `messageReceived` -/

/-- The violated assertions in a client's history. -/
def Client.failures (k : Client) : List Act :=
  k.acts.filter fun a => match a with
    | .assertFailed _ => true
    | _ => false

/-- No assertion was violated on the way from one world to the other, by the clients there
    were or by those created since. -/
structure AssertsHold (w w' : NodeWorld) : Prop where
  next : w.next ≤ w'.next
  old : ∀ d < w.next, (w'.clients d).failures = (w.clients d).failures
  new : ∀ d < w'.next, ¬ d < w.next → (w'.clients d).failures = []

namespace AssertsHold

variable {w w' : NodeWorld}

theorem refl (w : NodeWorld) : AssertsHold w w :=
  ⟨le_rfl, fun _ _ => rfl, fun _ hd hnew => absurd hd hnew⟩

/-- A step that leaves every client's failures as they are. -/
theorem still (h : AssertsHold w w') {w'' : NodeWorld} (hnext : w''.next = w'.next)
    (hsame : ∀ d, (w''.clients d).failures = (w'.clients d).failures) : AssertsHold w w'' where
  next := by rw [hnext]; exact h.next
  old d hd := (hsame d).trans (h.old d hd)
  new d hd hnew := (hsame d).trans (h.new d (by rw [← hnext]; exact hd) hnew)

theorem modify {c : ClientId} {f : Client → Client} (hf : ∀ k : Client, (f k).failures = k.failures)
    (h : AssertsHold w w') : AssertsHold w (w'.modify c f) := by
  refine h.still rfl fun d => ?_
  rw [World.clients_modify]
  split
  · exact hf _
  · rfl

theorem failures_log {a : Act} (ha : ∀ site, a ≠ .assertFailed site) (k : Client) :
    (k.log a).failures = k.failures := by
  unfold Client.failures Client.log
  rw [List.filter_append]
  cases a with
  | assertFailed site => exact absurd rfl (ha site)
  | _ => simp

theorem failures_destroy (k : Client) : (destroy k).failures = k.failures := by
  unfold destroy
  split
  · exact failures_log (by simp) _
  · exact failures_log (by simp) _

theorem onClose (c : ClientId) (h : AssertsHold w w') : AssertsHold w (onClose c w') := by
  unfold TcpUv.onClose
  have hlog := h.modify (c := c) (failures_log (a := .connectionClosed) (by simp))
  have hclosed : AssertsHold w
      (NodeApp.connectionClosed c (w'.modify c (·.log .connectionClosed))) := by
    refine hlog.still (next_connectionClosed _ _) fun d => ?_
    rw [clients_connectionClosed]
    split
    · exact failures_destroy _
    · rfl
  exact (hclosed.modify (failures_log (a := .deleteHandle) (by simp))).modify
    (failures_log (a := .state .closed) (by simp))

theorem close (c : ClientId) (h : AssertsHold w w') : AssertsHold w (close c w').1 := by
  have hcall : AssertsHold w (w'.modify c fun k => (k.log .closeCall).setState .closing) :=
    h.modify fun k => (failures_log (a := .state .closing) (by simp) _).trans
      (failures_log (by simp) k)
  unfold TcpUv.close
  dsimp only
  split
  · exact hcall
  · have hnull := hcall.modify (c := c) (f := fun k => { k with myUvStream := none })
      fun _ => rfl
    split
    · exact hnull.onClose c
    · exact hnull.modify fun k => failures_log (a := .uvClose _) (by simp) k

theorem sendMessage (uv : Uv) (c : ClientId) (m : Message) (h : AssertsHold w w') :
    AssertsHold w (sendMessage uv c m w').1 := by
  have hlog := h.modify (c := c) (failures_log (a := .sendMessage m) (by simp))
  unfold TcpUv.sendMessage
  dsimp only
  split
  · exact hlog
  · have hwritten : ∀ res : Int, AssertsHold w (((w'.modify c (·.log (.sendMessage m))).modify c
        (·.setState .sending)).modify c (·.uvWrite (frame m) res)) := fun res =>
      (hlog.modify (f := Client.setState .sending) fun k =>
        failures_log (a := .state .sending) (by simp) k).modify fun k =>
        failures_log (a := .uvWrite k.myUvStream (frame m)) (by simp) k
    split
    · exact (hwritten _).close c
    · exact hwritten _

theorem tryCandidate (uv : Uv) (key : Str) (h : AssertsHold w w') :
    AssertsHold w (tryCandidate uv w' key) := by
  have hnext := next_tryCandidate uv w' key
  refine ⟨h.next.trans hnext, fun d hd => ?_, fun d hd hnew => ?_⟩
  · rw [clients_tryCandidate uv (Nat.lt_of_lt_of_le hd h.next)]
    exact h.old d hd
  · by_cases hlt : d < w'.next
    · rw [clients_tryCandidate uv hlt]
      exact h.new d hlt hnew
    · obtain ⟨i, w'', hclient, hconnect⟩ := tryCandidate_new uv hlt hd
      rw [hconnect]
      rcases clients_connect uv d w'' with ⟨hguard, -⟩ | ⟨-, b, heq⟩
      · rw [hclient] at hguard
        exact absurd hguard (Client.not_refuses_of_state .notConnected rfl (by decide))
      · rw [heq, hclient]
        rfl

end AssertsHold

/-- Whether the handling of a message throws. -/
theorem threw_messageReceived (uv : Uv) (c : ClientId) (m : Message) (w : NodeWorld) :
    (NodeApp.messageReceived uv c m w).threw = true ↔
      m.SpeaksV01 ∧ throwsOn w c m = true := by
  cases m with
  | handshake myVersion yourAddr myAddr =>
    unfold NodeApp.messageReceived
    dsimp only
    by_cases hv : myVersion = textV01
    · rw [if_neg (not_not.mpr hv), throwsOn]
      have hspeaks : (Message.handshake myVersion yourAddr myAddr).SpeaksV01 := hv
      cases isPeerConnected w (w.clients c).myPeerAddr false with
      | false => simp [Outcome.threw]
      | true =>
        rw [if_neg (by simp)]
        by_cases hport : myAddr.take 1 = [':']
        · rw [if_neg (not_not.mpr hport)]
          cases hstoi : stoi (myAddr.drop 1) with
          | error e => simp [Outcome.threw, hport, hspeaks]
          | ok canonPort => simp [Outcome.threw]
        · rw [if_pos hport]
          simp [Outcome.threw, hport]
    · rw [if_pos hv]
      have hspeaks : ¬ (Message.handshake myVersion yourAddr myAddr).SpeaksV01 := hv
      simp [Outcome.threw, hspeaks]
  | _ => simp [NodeApp.messageReceived, Outcome.threw, throwsOn]

end TcpUv
