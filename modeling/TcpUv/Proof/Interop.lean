import TcpUv.Proof.Elsewhere
import TcpUv.Proof.Gossip
import TcpUv.Proof.Lifecycle
import TcpUv.Proof.Ownership
import TcpUv.Proof.ServerReplies

/-!
# A node connected to a server

Both programs listen on the same ports, so an outgoing peer of a node may well be
connected to a server. The two ends are put side by side, joined by one connection: what a
callback delivers at one end has been sent at the other.

The server has an answer to a handshake and to a ping, and an `assert(false)` for the rest
(`handled_iff`). A peer connection sends handshakes, pings and gossip. So the two get along
exactly as long as the node, each time it would gossip on the connection, has nothing to
tell (`interoperates_iff`). With the default parameters it has, at once: the server was
dialled as `localhost`, and the node tells the server about the server
(`gossip_unhandled`).
-/

set_option autoImplicit false

namespace TcpUv

open Lib NodeApp

/-! ## The two ends -/

/-- A node and a server. -/
structure Interop where
  node : NodeWorld
  server : ServerRun

/-- What can happen at either end. -/
inductive InteropEvent where
  | node (e : NodeEvent)
  | server (e : ServerEvent)

namespace Interop

def init : Interop := ⟨NodeWorld.init, ServerRun.init⟩

def step (nuv suv : Uv) (i : Interop) : InteropEvent → Interop
  | .node e => { i with node := (nodeSystem nuv).step i.node e }
  | .server e => { i with server := (serverSystem suv).step i.server e }

/-- The messages an event delivers to the node's client `c`. -/
def toNode (c : ClientId) (i : Interop) : NodeEvent → List Message
  | .client a cb => if a = c then cb.delivers (i.node.clients c) else []
  | _ => []

/-- The messages an event delivers to the server's client `d`. -/
def toServer (d : ClientId) (i : Interop) : ServerEvent → List Message
  | .client a cb => if a = d then cb.delivers (i.server.world.clients d) else []
  | _ => []

end Interop

/-- The node and the server, the node's client `c` connected to the server's client `d`. The
    other connections of both are anybody's. -/
def interopSystem (nuv suv : Uv) (c d : ClientId) : Lib.System Interop InteropEvent where
  step := Interop.step nuv suv
  allowed i
    | .node e => (nodeSystem nuv).allowed i.node e ∧ ∀ m ∈ i.toNode c e,
        d < i.server.world.next ∧ m ∈ (i.server.world.clients d).sent
    | .server e => (serverSystem suv).allowed i.server e ∧ ∀ m ∈ i.toServer d e,
        c < i.node.next ∧ m ∈ (i.node.clients c).sent

instance decidableInteropAllowed (nuv suv : Uv) (c d : ClientId) (i : Interop) :
    ∀ e, Decidable ((interopSystem nuv suv c d).allowed i e)
  | .node e => inferInstanceAs (Decidable ((nodeSystem nuv).allowed i.node e ∧
      ∀ m ∈ i.toNode c e, d < i.server.world.next ∧ m ∈ (i.server.world.clients d).sent))
  | .server e => inferInstanceAs (Decidable ((serverSystem suv).allowed i.server e ∧
      ∀ m ∈ i.toServer d e, c < i.node.next ∧ m ∈ (i.node.clients c).sent))

/-! ## Getting along -/

/-- The history goes on without an entry. -/
def Client.Avoids (a : Act) (k k' : Client) : Prop := ∃ l, k'.acts = k.acts ++ l ∧ a ∉ l

/-- A message the server handles on its client `d`, in whatever state: `messageReceived` returns,
    and neither runs into its `assert(false)` nor closes the connection. A failed `uv_write`
    closes it too, whatever the message. -/
def HandledBy (d : ClientId) (m : Message) : Prop :=
  ∀ (uv : Uv) (w : World ServerApp), (∀ k, uv.write d k = 0) → (w.clients d).Attached →
    ∃ w', ServerApp.messageReceived uv d m w = .returns w' ∧
      (w.clients d).Avoids (.assertFailed .unhandledMessage) (w'.clients d) ∧
      (w.clients d).Avoids .closeCall (w'.clients d)

/-- A callback that delivers messages to the server's client `d` leaves it open, and violates no
    assertion of `messageReceived`. -/
def Interop.Served (suv : Uv) (d : ClientId) (i : Interop) : InteropEvent → Prop
  | .server e => i.toServer d e ≠ [] →
      (i.server.world.clients d).Avoids (.assertFailed .unhandledMessage)
          (((serverSystem suv).step i.server e).world.clients d) ∧
        ((∀ k, suv.write d k = 0) → (i.server.world.clients d).Avoids .closeCall
          (((serverSystem suv).step i.server e).world.clients d))
  | .node _ => True

/-- **Node and server interoperate** in a run: the server handles whatever the node has sent it,
    and has handled what it was delivered. -/
structure Interoperates (nuv suv : Uv) (c d : ClientId) (es : List InteropEvent) : Prop where
  handled : ∀ m ∈ (((interopSystem nuv suv c d).run Interop.init es).node.clients c).sent,
    HandledBy d m
  served : (interopSystem nuv suv c d).Along (Interop.Served suv d) Interop.init es

/-! ## Nothing to tell -/

/-- Gossip on the connection would be empty: it is not connected, or the canonical address of every
    connected peer is its own peer address. -/
def NothingToTell (uv : Uv) (c : ClientId) (w : NodeWorld) : Prop :=
  isConnected uv c (w.clients c) = true →
    ∀ a ∈ connectedCanons uv w, readBack a = (w.clients c).myPeerAddr

instance decidableNothingToTell (uv : Uv) (c : ClientId) (w : NodeWorld) :
    Decidable (NothingToTell uv c w) :=
  inferInstanceAs (Decidable (isConnected uv c (w.clients c) = true →
    ∀ a ∈ connectedCanons uv w, readBack a = (w.clients c).myPeerAddr))

/-- The connection is established, and its timer made. -/
def established (uv : Uv) (c : ClientId) (w : NodeWorld) : NodeWorld :=
  w.modify c fun k =>
    { Client.establish uv c { k with tcp := { k.tcp with connecting := false } } with
      myTimer := true }

/-- `onTimer` has sent its ping. -/
def pinged (uv : Uv) (c : ClientId) (w : NodeWorld) : NodeWorld :=
  w.modify c (Client.sendNow uv c (.ping (pingText w.app.myName (w.clients c).myPeerAddr
    (w.clients c).peerSendCounter)))

/-- The timer runs, and the handshake has been sent. -/
def greeted (uv : Uv) (c : ClientId) (w : NodeWorld) : NodeWorld :=
  w.modify c fun k => { k with timerActive := true, peerSendCounter := 0 }.sendNow uv c
    (.handshake textV01 k.myPeerAddr w.app.myName)

/-- The node has nothing to tell where it would gossip on the connection: after the ping of a
    timer, and after the ping and after the handshake that follow a connect. -/
def QuietAt (uv : Uv) (c : ClientId) (w : NodeWorld) : NodeEvent → Prop
  | .client a (.connected status) => a = c → status = 0 →
      NothingToTell uv c (pinged uv c (established uv c w)) ∧
        NothingToTell uv c (greeted uv c (pinged uv c (established uv c w)))
  | .client a .timer => a = c → NothingToTell uv c (pinged uv c w)
  | _ => True

instance decidableQuietAt (uv : Uv) (c : ClientId) (w : NodeWorld) :
    ∀ e, Decidable (QuietAt uv c w e)
  | .client a (.connected status) => inferInstanceAs (Decidable (a = c → status = 0 →
      NothingToTell uv c (pinged uv c (established uv c w)) ∧
        NothingToTell uv c (greeted uv c (pinged uv c (established uv c w)))))
  | .client a .timer => inferInstanceAs (Decidable (a = c → NothingToTell uv c (pinged uv c w)))
  | .start _ | .listenStarted _ | .newConnection _ _ | .client _ (.read _ _)
  | .client _ (.wrote _) | .client _ .closed => .isTrue trivial

/-- The same, of an event at either end. -/
def Interop.Quiet (nuv : Uv) (c : ClientId) (i : Interop) : InteropEvent → Prop
  | .node e => QuietAt nuv c i.node e
  | .server _ => True

instance decidableInteropQuiet (nuv : Uv) (c : ClientId) (i : Interop) :
    ∀ e, Decidable (i.Quiet nuv c e)
  | .node e => decidableQuietAt nuv c i.node e
  | .server _ => .isTrue trivial

/-! ## The server's end -/

namespace Client

namespace Avoids

variable {a : Act} {k k' k'' : Client}

theorem refl (a : Act) (k : Client) : k.Avoids a k := ⟨[], (List.append_nil _).symm, by simp⟩

theorem trans (h : k.Avoids a k') (h' : k'.Avoids a k'') : k.Avoids a k'' := by
  obtain ⟨l, hl, hnone⟩ := h
  obtain ⟨l', hl', hnone'⟩ := h'
  refine ⟨l ++ l', by rw [hl', hl, List.append_assoc], fun hm => ?_⟩
  rcases List.mem_append.mp hm with hm | hm
  · exact hnone hm
  · exact hnone' hm

/-- One entry more. -/
theorem not_log {b : Act} {k : Client} : k.Avoids a (k.log b) ↔ a ≠ b := by
  constructor
  · rintro ⟨l, hl, hnone⟩ rfl
    rw [List.append_cancel_left hl.symm] at hnone
    exact hnone (by simp)
  · exact fun hne => ⟨[b], rfl, by simpa using hne⟩

end Avoids

/-- What a message sent leaves out of the history, if libuv takes it. -/
theorem avoids_send {a : Act} (m : Message) (res : Int) (k : Client)
    (hsent : ∀ m, a ≠ .sendMessage m) (hstate : ∀ s, a ≠ .state s)
    (hwrite : ∀ stream fr, a ≠ .uvWrite stream fr)
    (hshut : res = 0 ∨ a ≠ .closeCall ∧ ∀ hd, a ≠ .uvClose hd) : k.Avoids a (k.send m res) := by
  have hlog : k.Avoids a (k.log (.sendMessage m)) := Avoids.not_log.mpr (hsent m)
  have hwritten : k.Avoids a
      (((k.log (.sendMessage m)).setState .sending).uvWrite (frame m) res) :=
    (hlog.trans (Avoids.not_log.mpr (hstate .sending))).trans
      ⟨[.uvWrite k.myUvStream (frame m)], rfl, by simpa using hwrite _ _⟩
  unfold send
  split
  · exact hlog
  · split
    · rename_i hres
      obtain ⟨hclose, huvClose⟩ := hshut.resolve_left hres
      apply hwritten.trans
      unfold shut
      split
      · exact ⟨[.closeCall, .state .closing], by simp [setState, log], by simp [hclose, hstate]⟩
      · rename_i hd _
        refine ⟨[.closeCall, .state .closing, .uvClose hd], ?_, by simp [hclose, hstate, huvClose]⟩
        simp [setState, log, uvClose]
    · exact hwritten

end Client

/-- A request is answered, and that is all. -/
theorem ServerApp.avoids_react (uv : Uv) (d : ClientId) (name : Str) {m : Message}
    (hm : m.IsRequest) (k : Client) :
    k.Avoids (.assertFailed .unhandledMessage) (react uv d name m k) ∧
      ((∀ k, uv.write d k = 0) → k.Avoids .closeCall (react uv d name m k)) := by
  have hsend : ∀ m' : Message,
      k.Avoids (.assertFailed .unhandledMessage) (k.sendNow uv d m') ∧
        ((∀ k, uv.write d k = 0) → k.Avoids .closeCall (k.sendNow uv d m')) := fun m' =>
    ⟨k.avoids_send m' _ (by simp) (by simp) (by simp) (Or.inr (by simp)),
      fun hwrite => k.avoids_send m' _ (by simp) (by simp) (by simp) (Or.inl (hwrite _))⟩
  cases m with
  | handshake myVersion yourAddr myAddr =>
    have hv : ¬ myVersion ≠ textV01 := not_not.mpr hm
    unfold react
    dsimp only
    rw [if_neg hv]
    exact hsend _
  | ping text => exact hsend _
  | handshakeResponse myVersion myAddr yourAddr => cases hm
  | pingResponse text => cases hm
  | otherPeer host port => cases hm

/-- **What the server handles**: the requests, and nothing else. -/
theorem handled_iff (d : ClientId) (m : Message) : HandledBy d m ↔ m.IsRequest := by
  constructor
  · intro hhandled
    -- in front of a client that nothing has happened to
    obtain ⟨w', hreturns, hassert, hclose⟩ := hhandled Uv.cooperative (World.init {})
      (fun _ => rfl) (fun _ => rfl)
    have hreact := ServerApp.takesAs_react Uv.cooperative d {} m (World.init {}) rfl fun _ => rfl
    obtain rfl := Outcome.returns.inj (hreturns.symm.trans hreact)
    rw [World.clients_modify_self] at hassert hclose
    cases m with
    | handshake myVersion yourAddr myAddr =>
      by_contra hv
      have hv : myVersion ≠ textV01 := hv
      obtain ⟨l, hl, hnone⟩ := hclose
      rw [ServerApp.react, if_pos hv] at hl
      obtain rfl : [Act.closeCall, .state .closing] = l := hl
      exact hnone (by simp)
    | ping text => trivial
    | _ => exact absurd rfl (Client.Avoids.not_log.mp hassert)
  · intro hm uv w hwrite ha
    obtain ⟨hassert, hclose⟩ := ServerApp.avoids_react uv d w.app.myName hm (w.clients d)
    refine ⟨_, ServerApp.takesAs_react uv d w.app m w rfl ha, ?_, ?_⟩
    · rw [World.clients_modify_self]
      exact hassert
    · rw [World.clients_modify_self]
      exact hclose hwrite

/-- A read that delivers messages does to the connection what they do to it. -/
theorem Client.avoids_serve {uv : Uv} {d : ClientId} {name : Str} {a : Act} {cb : Callback}
    {k : Client} (hstate : ∀ s, a ≠ .state s) (hover : ∀ m, a ≠ .messageReceived m)
    (hreact : ∀ m ∈ cb.delivers k, ∀ k, Client.Avoids a k (ServerApp.react uv d name m k))
    (hdelivers : cb.delivers k ≠ []) : k.Avoids a (k.serve uv d name cb) := by
  rcases k.serve_cases uv d name cb with ⟨nread, base, rfl, hpos, hserve⟩ | ⟨hno, -⟩
  · rw [Callback.delivers_data _ hpos] at hreact
    rw [hserve]
    refine digest_preserves (J := k.Avoids a) (fun _ h => h) _ (fun {k'} m hm h => ?_) (.refl a k)
    have hhanded : k'.Avoids a (k'.handOver m) :=
      (Avoids.not_log (k := k').mpr (hstate .received)).trans (Avoids.not_log.mpr (hover m))
    exact (h.trans hhanded).trans (hreact m hm _)
  · exact absurd (Callback.delivers_none hno) hdelivers

/-- Requests are all it takes for a callback to go well. -/
theorem served_step {suv : Uv} {d : ClientId} {i : Interop} {e : ServerEvent}
    (h : ServerSane i.server.world) (ha : (serverSystem suv).allowed i.server e)
    (hrequests : ∀ m ∈ i.toServer d e, m.IsRequest) : i.Served suv d (.server e) := by
  intro hdelivers
  have hm := serverStep_move h ha
  change ServerMove suv i.server ((serverSystem suv).step i.server e).world e at hm
  generalize ((serverSystem suv).step i.server e).world = w' at hm ⊢
  cases e with
  | client a cb =>
    unfold Interop.toServer at hdelivers hrequests
    dsimp only at hdelivers hrequests
    split at hdelivers
    · rename_i hself
      subst hself
      rw [if_pos rfl] at hrequests
      cases hm with
      | aside hevent => exact absurd rfl (hevent a cb)
      | closed => exact absurd rfl hdelivers
      | served _ _ _ hclients =>
        rw [hclients, if_pos rfl]
        have hreact := fun m hm => ServerApp.avoids_react suv a i.server.world.app.myName
          (hrequests m hm)
        exact ⟨Client.avoids_serve (by simp) (by simp) (fun m hm k => (hreact m hm k).1) hdelivers,
          fun hwrite => Client.avoids_serve (by simp) (by simp)
            (fun m hm k => (hreact m hm k).2 hwrite) hdelivers⟩
    · exact absurd rfl hdelivers
  | _ => exact absurd rfl hdelivers

/-- What the server sends. -/
def Message.IsResponse : Message → Prop
  | .handshakeResponse _ _ _ | .pingResponse _ => True
  | _ => False

theorem ServerApp.answer_isResponse {name addr : Str} {m m' : Message}
    (h : answer name addr m = some m') : m'.IsResponse := by
  cases m with
  | handshake myVersion yourAddr myAddr =>
    unfold answer at h
    dsimp only at h
    split at h
    · obtain rfl := Option.some.inj h
      trivial
    · cases h
  | ping text =>
    obtain rfl := Option.some.inj h
    trivial
  | _ => cases h

/-- The server sends nothing but responses. -/
theorem responses_step {suv : Uv} {d : ClientId} {s : ServerRun} {e : ServerEvent}
    (h : ServerSane s.world) (ha : (serverSystem suv).allowed s e)
    (hresponses : ∀ m ∈ (s.world.clients d).sent, m.IsResponse) :
    ∀ m ∈ (((serverSystem suv).step s e).world.clients d).sent, m.IsResponse := by
  have hm := serverStep_move h ha
  change ServerMove suv s ((serverSystem suv).step s e).world e at hm
  intro m hmem
  rcases hm.sent with ⟨-, hsent⟩ | ⟨a, cb, -, -, hself, hothers⟩
  · rcases hsent d with hsame | hnone
    · exact hresponses m (hsame ▸ hmem)
    · rw [hnone] at hmem
      cases hmem
  · by_cases hd : d = a
    · rw [hd, hself] at hmem
      rcases List.mem_append.mp hmem with hold | hnew
      · exact hresponses m (hd ▸ hold)
      · obtain ⟨_, -, hanswer⟩ := List.mem_filterMap.mp hnew
        exact ServerApp.answer_isResponse hanswer
    · rw [hothers d hd] at hmem
      exact hresponses m hmem

/-! ## The node's end -/

namespace Client

/-- Nothing but requests has been sent. -/
def Asks (k : Client) : Prop := ∀ m ∈ k.sent, m.IsRequest

/-- A move that sends the messages of a list. It does not establish the connection. -/
structure Adds (ms : List Message) (k k' : Client) : Prop where
  kind : k'.kind = k.kind
  attached : k.Attached → k'.Attached
  settled : k.myState ≠ .connected → k'.myState ≠ .connected
  sent : k'.sent = k.sent ++ ms

namespace Adds

variable {ms ms' : List Message} {k k' k'' : Client}

theorem refl (k : Client) : k.Adds [] k := ⟨rfl, id, id, (List.append_nil _).symm⟩

theorem trans (h : k.Adds ms k') (h' : k'.Adds ms' k'') : k.Adds (ms ++ ms') k'' :=
  ⟨h'.kind.trans h.kind, fun ha => h'.attached (h.attached ha),
    fun hs => h'.settled (h.settled hs), by rw [h'.sent, h.sent, List.append_assoc]⟩

theorem idle (h : k.Idle k') (hs : k.myState ≠ .connected → k'.myState ≠ .connected) :
    k.Adds [] k' :=
  ⟨h.kind, h.attached, hs, by rw [h.sent, List.append_nil]⟩

theorem shut (k : Client) : k.Adds [] k.shut := idle (.shut k) fun _ => by simp

theorem asks (h : k.Adds ms k') : k'.Asks ↔ k.Asks ∧ ∀ m ∈ ms, m.IsRequest := by
  unfold Asks
  rw [h.sent]
  exact List.forall_mem_append

end Adds

theorem settled_send (m : Message) (res : Int) {k : Client} :
    (k.send m res).myState ≠ .connected := by
  unfold send
  split
  · rename_i hclosed
    intro hs
    have hstate : k.myState = .connected := hs
    rw [hstate] at hclosed
    simp at hclosed
  · split
    · simp
    · exact fun hs => by cases hs

theorem adds_send (m : Message) (res : Int) (k : Client) : k.Adds [m] (k.send m res) :=
  have h := sends_send m res k
  ⟨h.kind, h.attached, fun _ => settled_send m res, h.sent⟩

theorem adds_read (res : Int) (k : Client) : k.Adds [] (k.read res) := by
  refine .idle (.read res k) fun _ => ?_
  unfold read
  dsimp only
  split
  · simp
  · exact fun hs => by cases hs

section

variable (uv : Uv) (c : ClientId) (name : Str) {k : Client}

/-- `process()` of a peer connection, once it is established. -/
theorem adds_proceed (hk : k.kind = .peerClientOut) (hs : k.myState ≠ .connected) :
    k.Adds [] (k.proceed uv c name) := by
  rw [proceed_peer uv c name hk]
  rcases state_cases k with hs' | hs' | hs' | hs' | hs'
  · exact absurd hs' hs
  · rw [advancePeer_sending uv c hs']
    have hcounted : k.Adds [] { k with peerSendCounter := k.peerSendCounter + 1 } :=
      ⟨rfl, id, id, (List.append_nil _).symm⟩
    exact hcounted.trans (adds_read _ _)
  · rw [advancePeer_waiting uv c hs']
    exact adds_read _ _
  · rw [advancePeer_received uv c hs']
    exact .refl k
  · rw [advancePeer_unhandled uv c hs']
    exact .idle (.log rfl k) id

/-- A read or a write of a peer connection, where the app does nothing about the messages. -/
theorem adds_move (hk : k.kind = .peerClientOut) (hs : k.myState ≠ .connected) {cb : Callback}
    (hcb : ∀ status, cb ≠ .connected status) :
    k.Adds [] (k.move uv c name (fun _ k => k) cb) := by
  have hproceed : ∀ {k' : Client}, k.Adds [] k' → k.Adds [] (k'.proceed uv c name) := fun h =>
    h.trans (adds_proceed uv c name (h.kind.trans hk) (h.settled hs))
  cases cb with
  | connected status => exact absurd rfl (hcb status)
  | read nread buf =>
    unfold move
    dsimp only
    split
    · exact .shut k
    · cases buf with
      | none => exact hproceed (.refl k)
      | some base =>
        have htook := took_readIn nread base k
        have hread : k.Adds [] (k.readIn (fun _ k => k) nread base) := by
          refine ⟨htook.kind, fun ha hstream => ?_, fun hs => ?_, ?_⟩
          · rw [htook.myUvStream] at hstream
            rw [htook.tcp]
            exact ha hstream
          · rw [htook.myState]
            split
            · exact hs
            · simp
          · rw [htook.sent, List.append_nil]
        dsimp only
        split
        · exact hread
        · exact hproceed hread
  | wrote status =>
    have hassert : k.Adds []
        ({ k with tcp := { k.tcp with writes := k.tcp.writes - 1 } } : Client).assertWrite := by
      have hbooked := Idle.bookkeeping (k := k)
        (t := { k.tcp with writes := k.tcp.writes - 1 }) rfl
      refine .idle (hbooked.trans (.assertWrite _)) fun hs => ?_
      unfold assertWrite Client.assert
      split
      · exact hs
      · exact hs
    unfold move
    dsimp only
    split
    · exact hassert.trans (.shut _)
    · exact hproceed hassert
  | closed => exact .refl k
  | timer => exact .refl k

end

end Client

/-! ### Gossip -/

section

variable {uv : Uv} {c : ClientId} {w : NodeWorld}

/-- Nothing happens where there is nothing to tell. -/
theorem gossipLoop_quiet : ∀ {es : List Endpoint}, (isConnected uv c (w.clients c) = true →
    ∀ e ∈ es, e.getEndpoint = (w.clients c).myPeerAddr) → sendOtherPeersLoop uv c es w = w := by
  intro es
  induction es with
  | nil => intro _; rfl
  | cons e es ih =>
    intro hquiet
    rw [sendOtherPeersLoop]
    split
    · rfl
    · rename_i hconn
      have hall := hquiet (by simpa using hconn)
      rw [if_neg (not_not.mpr (hall e (by simp)))]
      exact ih fun _ e' he' => hall e' (List.mem_cons_of_mem e he')

/-- The loop sends gossip, and some as soon as there is a peer to tell of. Induction on the list;
    until the first message the connection is as connected as it was. -/
theorem gossipLoop_adds : ∀ (es : List Endpoint) {w : NodeWorld}, (w.clients c).Attached →
    ∃ ms, (w.clients c).Adds ms ((sendOtherPeersLoop uv c es w).clients c) ∧
      (∀ m ∈ ms, ¬ m.IsRequest) ∧
      (ms = [] → isConnected uv c (w.clients c) = true →
        ∀ e ∈ es, e.getEndpoint = (w.clients c).myPeerAddr) := by
  intro es
  induction es with
  | nil => intro w _; exact ⟨[], .refl _, by simp, by simp⟩
  | cons e es ih =>
    intro w ha
    rw [sendOtherPeersLoop]
    split
    · rename_i hconn
      refine ⟨[], .refl _, by simp, fun _ hconn' => ?_⟩
      rw [hconn] at hconn'
      cases hconn'
    · split
      · rw [sendMessage_eq uv ha]
        have hsent : (w.clients c).Adds [.otherPeer e.myHost e.myPort]
            ((w.modify c (Client.send (.otherPeer e.myHost e.myPort)
              (writeAnswer uv c (.otherPeer e.myHost e.myPort) (w.clients c)))).clients c) := by
          rw [World.clients_modify_self]
          exact Client.adds_send _ _ _
        obtain ⟨ms, hms, hgossip, -⟩ := ih (hsent.attached ha)
        refine ⟨.otherPeer e.myHost e.myPort :: ms, hsent.trans hms, fun m hm => ?_, by simp⟩
        rcases List.mem_cons.mp hm with rfl | hm
        · exact id
        · exact hgossip m hm
      · rename_i hself
        obtain ⟨ms, hms, hgossip, hnone⟩ := ih ha
        refine ⟨ms, hms, hgossip, fun hnil hconn e' he' => ?_⟩
        rcases List.mem_cons.mp he' with rfl | he'
        · exact not_not.mp hself
        · exact hnone hnil hconn e' he'

theorem nothingToTell_iff : NothingToTell uv c w ↔ (isConnected uv c (w.clients c) = true →
    ∀ e ∈ getConnectedPeers uv w, e.getEndpoint = (w.clients c).myPeerAddr) := by
  have htexts : (∀ e ∈ getConnectedPeers uv w, e.getEndpoint = (w.clients c).myPeerAddr) ↔
      ∀ a ∈ gossipTexts uv w, a = (w.clients c).myPeerAddr := by
    rw [← map_getConnectedPeers, List.forall_mem_map]
  unfold NothingToTell
  rw [htexts]
  simp only [mem_gossipTexts, forall_exists_index, and_imp, forall_apply_eq_imp_iff₂]

/-- **Gossip and requests**: a connection that has sent requests only still has, exactly if there
    was nothing to tell. -/
theorem asks_gossip (ha : (w.clients c).Attached) :
    ((sendOtherPeers uv c w).clients c).Asks ↔ (w.clients c).Asks ∧ NothingToTell uv c w := by
  obtain ⟨ms, hadds, hgossip, hnone⟩ := gossipLoop_adds (getConnectedPeers uv w) ha
  rw [sendOtherPeers, hadds.asks]
  refine and_congr_right fun _ => ⟨fun hall => ?_, fun hquiet m hm => ?_⟩
  · rw [nothingToTell_iff]
    exact hnone (List.eq_nil_iff_forall_not_mem.mpr fun m hm => hgossip m hm (hall m hm))
  · have hsame := gossipLoop_quiet (nothingToTell_iff.mp hquiet)
    rw [hsame] at hadds
    rw [List.append_cancel_left (hadds.sent.symm.trans (List.append_nil _).symm)] at hm
    cases hm

theorem gossip_quiet (h : NothingToTell uv c w) : sendOtherPeers uv c w = w :=
  gossipLoop_quiet (nothingToTell_iff.mp h)

theorem adds_gossip (uv : Uv) (ha : (w.clients c).Attached) :
    ∃ ms, (w.clients c).Adds ms ((sendOtherPeers uv c w).clients c) :=
  (gossipLoop_adds (getConnectedPeers uv w) ha).imp fun _ h => h.1

end

/-! ### The connection's own callbacks -/

/-- The node ignores a response. -/
theorem takesAs_response (uv : Uv) (c : ClientId) (a : NodeApp) {m : Message} (hm : m.IsResponse) :
    TakesAs uv c a (fun _ k => k) m := by
  rintro w rfl -
  show NodeApp.messageReceived uv c m w = _
  cases m with
  | handshakeResponse myVersion myAddr yourAddr =>
    exact congrArg Outcome.returns (modify_id w c rfl).symm
  | pingResponse text => exact congrArg Outcome.returns (modify_id w c rfl).symm
  | handshake myVersion yourAddr myAddr => cases hm
  | ping text => cases hm
  | otherPeer host port => cases hm

theorem Client.adds_close (gone : Bool) (k : Client) :
    k.Adds [] (((k.reported.leave gone).log .deleteHandle).setState .closed) := by
  refine ⟨kind_leave gone k.reported, fun ha => attached_leave (k := k.reported) ha,
    (fun _ hs => by cases hs), ?_⟩
  unfold Client.sent
  simp only [setState, log, acts_leave, reported]
  cases gone <;> simp [Act.sentMessage]

section

variable {uv : Uv} {c : ClientId} {w : NodeWorld}

theorem onTimer_eq (ha : (w.clients c).Attached) :
    onTimer uv c w = sendOtherPeers uv c (pinged uv c w) := by
  show sendOtherPeers uv c (sendMessage uv c _ w).1 = _
  rw [sendMessage_now uv _ ha]
  rfl

theorem adds_pinged (uv : Uv) (c : ClientId) (w : NodeWorld) :
    (w.clients c).Adds [.ping (pingText w.app.myName (w.clients c).myPeerAddr
      (w.clients c).peerSendCounter)] ((pinged uv c w).clients c) := by
  rw [pinged, World.clients_modify_self]
  exact Client.adds_send _ _ _

theorem adds_greeted (uv : Uv) (c : ClientId) (w : NodeWorld) :
    (w.clients c).Adds [.handshake textV01 (w.clients c).myPeerAddr w.app.myName]
      ((greeted uv c w).clients c) := by
  have hstarted : (w.clients c).Adds []
      { w.clients c with timerActive := true, peerSendCounter := 0 } :=
    ⟨rfl, id, id, (List.append_nil _).symm⟩
  rw [greeted, World.clients_modify_self]
  exact hstarted.trans (Client.adds_send _ _ _)

/-- A ping leaves a connection that has asked, one that asks. -/
theorem asks_pinged : ((pinged uv c w).clients c).Asks ↔ (w.clients c).Asks := by
  rw [(adds_pinged uv c w).asks]
  simp [Message.IsRequest]

theorem asks_greeted : ((greeted uv c w).clients c).Asks ↔ (w.clients c).Asks := by
  rw [(adds_greeted uv c w).asks]
  simp [Message.IsRequest]

theorem established_spec (uv : Uv) (c : ClientId) (w : NodeWorld) :
    ((established uv c w).clients c).kind = (w.clients c).kind ∧
      ((established uv c w).clients c).myState = .connected ∧
      ((w.clients c).Attached → ((established uv c w).clients c).Attached) ∧
      (((established uv c w).clients c).Asks ↔ (w.clients c).Asks) := by
  obtain ⟨canon, hcanon⟩ := Client.establish_eq uv c
    { w.clients c with tcp := { (w.clients c).tcp with connecting := false } }
  rw [established, World.clients_modify_self, hcanon]
  refine ⟨rfl, rfl, id, ?_⟩
  simp [Client.Asks, Client.sent, Client.setState, Act.sentMessage]

/-- What is established is what `process()` starts the timer on. -/
theorem onConnect_established (uv : Uv) (hk : (w.clients c).kind = .peerClientOut) : ∃ w',
    nodeStep uv w (.client c (.connected 0)) = process uv c w' ∧
      w'.modify c (fun k => { k with myTimer := true }) = established uv c w ∧
      (w'.clients c).myState = .connected ∧ (w'.clients c).kind = .peerClientOut := by
  obtain ⟨canon, hcanon⟩ := Client.establish_eq uv c
    { w.clients c with tcp := { (w.clients c).tcp with connecting := false } }
  refine ⟨w.modify c fun k => Client.establish uv c
    { k with tcp := { k.tcp with connecting := false } }, ?_, ?_, ?_, ?_⟩
  · show onConnect uv c 0 (w.modify c fun k =>
      { k with tcp := { k.tcp with connecting := false } }) = _
    rw [onConnect_eq, World.clients_modify_self, if_neg (by rw [hk]; simp), World.modify_modify]
    rfl
  · rw [World.modify_modify]
    rfl
  · rw [World.clients_modify_self, hcanon]
    rfl
  · rw [World.clients_modify_self, hcanon]
    exact hk

/-- **A connect**: ping, gossip, handshake, gossip. -/
theorem connected_eq (hk : (w.clients c).kind = .peerClientOut) (ha : (w.clients c).Attached) :
    nodeStep uv w (.client c (.connected 0)) = sendOtherPeers uv c
      (greeted uv c (sendOtherPeers uv c (pinged uv c (established uv c w)))) := by
  obtain ⟨-, -, hattached, -⟩ := established_spec uv c w
  have hpinged := (adds_pinged uv c (established uv c w)).attached (hattached ha)
  obtain ⟨ms, hms⟩ := adds_gossip uv hpinged
  have hready := hms.attached hpinged
  obtain ⟨w', hstep, hw', hs, hk'⟩ := onConnect_established uv hk
  rw [hstep]
  unfold process
  rw [hk']
  dsimp only
  unfold PeerClientOut.process
  rw [hs]
  dsimp only
  rw [hw', onTimer_eq (hattached ha), World.clients_modify_self,
    sendMessage_after uv _ (by exact hready)]
  rfl

/-- Each of the two rounds of gossip after a connect is told nothing, or tells. -/
theorem asks_connected (hk : (w.clients c).kind = .peerClientOut) (ha : (w.clients c).Attached) :
    ((nodeStep uv w (.client c (.connected 0))).clients c).myState ≠ .connected ∧
      (((nodeStep uv w (.client c (.connected 0))).clients c).Asks ↔
        (w.clients c).Asks ∧ QuietAt uv c w (.client c (.connected 0))) := by
  obtain ⟨-, -, hattached, hasks⟩ := established_spec uv c w
  have hpinged := (adds_pinged uv c (established uv c w)).attached (hattached ha)
  obtain ⟨ms, hms⟩ := adds_gossip uv hpinged
  have hgreeted := (adds_greeted uv c _).attached (hms.attached hpinged)
  obtain ⟨ms', hms'⟩ := adds_gossip uv hgreeted
  have hsettled : ∀ w : NodeWorld, ((greeted uv c w).clients c).myState ≠ .connected := by
    intro w
    rw [greeted, World.clients_modify_self]
    exact Client.settled_send _ _
  rw [connected_eq hk ha]
  refine ⟨hms'.settled (hsettled _), ?_⟩
  rw [asks_gossip hgreeted, asks_greeted, asks_gossip hpinged, asks_pinged, hasks, and_assoc]
  refine and_congr_right fun _ => ⟨?_, fun h => ?_⟩
  · rintro ⟨hfirst, hsecond⟩ - -
    rw [gossip_quiet hfirst] at hsecond
    exact ⟨hfirst, hsecond⟩
  · obtain ⟨hfirst, hsecond⟩ := h rfl rfl
    refine ⟨hfirst, ?_⟩
    rw [gossip_quiet hfirst]
    exact hsecond

theorem asks_timer (ha : (w.clients c).Attached) (hs : (w.clients c).myState ≠ .connected) :
    ((nodeStep uv w (.client c .timer)).clients c).myState ≠ .connected ∧
      (((nodeStep uv w (.client c .timer)).clients c).Asks ↔
        (w.clients c).Asks ∧ QuietAt uv c w (.client c .timer)) := by
  have hpinged := (adds_pinged uv c w).attached ha
  obtain ⟨ms, hms⟩ := adds_gossip uv hpinged
  have hstep : nodeStep uv w (.client c .timer) = sendOtherPeers uv c (pinged uv c w) :=
    onTimer_eq ha
  rw [hstep]
  refine ⟨hms.settled ((adds_pinged uv c w).settled hs), ?_⟩
  rw [asks_gossip hpinged, asks_pinged]
  exact and_congr_right fun _ => ⟨fun h _ => h, fun h => h rfl⟩

/-- The other callbacks send nothing, as long as they deliver nothing but responses. -/
theorem adds_callback (uv : Uv) (hk : (w.clients c).kind = .peerClientOut)
    (ha : (w.clients c).Attached) (hs : (w.clients c).myState ≠ .connected) {cb : Callback}
    (htimer : cb ≠ .timer)
    (hconn : cb ≠ .connected 0) (hresponses : ∀ m ∈ cb.delivers (w.clients c), m.IsResponse) :
    (w.clients c).Adds [] ((nodeStep uv w (.client c cb)).clients c) := by
  by_cases hclosed : cb = .closed
  · subst hclosed
    rw [(closes_step uv c w).self]
    exact Client.adds_close _ _
  by_cases hstatus : ∃ status, cb = .connected status
  · obtain ⟨status, rfl⟩ := hstatus
    have hfailed : status ≠ 0 := fun h => hconn (by rw [h])
    have hstep : nodeStep uv w (.client c (.connected status)) =
        w.modify c fun k => { k with tcp := { k.tcp with connecting := false } } := by
      show onConnect uv c status _ = _
      unfold onConnect
      rw [World.clients_modify_self, if_neg (by rw [hk]; simp), if_pos hfailed]
    rw [hstep, World.clients_modify_self]
    exact ⟨rfl, id, id, (List.append_nil _).symm⟩
  · rw [not_exists] at hstatus
    have hname : BaseApp.getName w.app = w.app.myName := rfl
    have hworld := (callback_move uv reaction_none ha hname ⟨hclosed, htimer⟩
      (fun _ => ⟨hs, hstatus⟩) fun m hm => takesAs_response uv c w.app (hresponses m hm)).1
    show (w.clients c).Adds [] ((callback uv c w cb).settle.clients c)
    rw [Outcome.clients_settle, hworld, World.clients_modify_self]
    exact Client.adds_move uv c _ hk hs hstatus

/-- **One callback of the connection**: what the node has sent stays free of gossip, exactly if it
    had nothing to tell. -/
theorem asks_callback (hk : (w.clients c).kind = .peerClientOut) (ha : (w.clients c).Attached)
    (hs : (w.clients c).myState ≠ .connected) {cb : Callback}
    (hresponses : ∀ m ∈ cb.delivers (w.clients c), m.IsResponse) :
    ((nodeStep uv w (.client c cb)).clients c).myState ≠ .connected ∧
      (((nodeStep uv w (.client c cb)).clients c).Asks ↔
        (w.clients c).Asks ∧ QuietAt uv c w (.client c cb)) := by
  by_cases htimer : cb = .timer
  · subst htimer
    exact asks_timer ha hs
  by_cases hconn : cb = .connected 0
  · subst hconn
    exact asks_connected hk ha
  · have hsilent := adds_callback uv hk ha hs htimer hconn hresponses
    have hquiet : QuietAt uv c w (.client c cb) := by
      cases cb with
      | connected status =>
        exact fun _ hstatus => absurd (congrArg Callback.connected hstatus) hconn
      | timer => exact absurd rfl htimer
      | _ => trivial
    refine ⟨hsilent.settled hs, ?_⟩
    rw [hsilent.asks]
    simp [hquiet]

end

/-! ### One event of the node -/

theorem destroy_silent (k : Client) : (destroy k).kind = k.kind ∧
    (destroy k).myState = k.myState ∧ (destroy k).sent = k.sent := by
  have hlog : ∀ k : Client, (k.log .destructor).sent = k.sent := Client.sent_destructor
  unfold destroy
  split
  · exact ⟨rfl, rfl, hlog _⟩
  · exact ⟨rfl, rfl, hlog _⟩

/-- A peer connection is created silent, and not yet connected. -/
def Client.Fresh (k : Client) : Prop :=
  k.kind = .peerClientOut → k.myState ≠ .connected ∧ k.sent = []

theorem bystander_fresh (uv : Uv) (c : ClientId) : Bystander uv c Client.Fresh where
  dialled {w host port} hnew _ := by
    rcases clients_connect uv c w with ⟨hguard, -⟩ | ⟨-, b, heq⟩
    · rw [hnew] at hguard
      exact absurd hguard (Client.not_refuses_of_state .notConnected rfl (by decide))
    · rw [heq, hnew]
      exact ⟨(fun hs => by cases hs), rfl⟩
  accepted a hk := by
    rw [(Client.Idle.read _ _).kind] at hk
    cases hk
  destroy {k} h hk := by
    obtain ⟨hkind, hstate, hsent⟩ := destroy_silent k
    rw [hstate, hsent]
    exact h (hkind.symm.trans hk)

section

variable {uv : Uv} {c : ClientId} {w : NodeWorld} {e : NodeEvent}

/-- What an event elsewhere leaves alone. -/
theorem asks_elsewhere (uv : Uv) (he : ∀ cb, e ≠ .client c cb) (hc : c < w.next) :
    ((nodeStep uv w e).clients c).myState = (w.clients c).myState ∧
      ((nodeStep uv w e).clients c).sent = (w.clients c).sent := by
  have hI : Elsewhere uv c fun w' => c < w'.next ∧
      (w'.clients c).myState = (w.clients c).myState ∧
      (w'.clients c).sent = (w.clients c).sent :=
    elsewhere_now (J := fun k => k.myState = (w.clients c).myState ∧ k.sent = (w.clients c).sent)
      fun {k} h => by
        obtain ⟨-, hstate, hsent⟩ := destroy_silent k
        exact ⟨hstate.trans h.1, hsent.trans h.2⟩
  exact (hI.step he ⟨hc, rfl, rfl⟩).2

theorem quietAt_elsewhere (he : ∀ cb, e ≠ .client c cb) : QuietAt uv c w e := by
  cases e with
  | client a cb =>
    have hne : a ≠ c := fun ha => he cb (by rw [ha])
    cases cb with
    | connected status => exact fun ha => absurd ha hne
    | timer => exact fun ha => absurd ha hne
    | _ => trivial
  | _ => trivial

/-- The client, once it exists, is a peer connection. -/
def PeerOut (c : ClientId) : NodeWorld → Prop := AtClient (fun k => k.kind = .peerClientOut) c

/-- It is not between two steps of being established. -/
def Settled (c : ClientId) : NodeWorld → Prop := AtClient (fun k => k.myState ≠ .connected) c

/-- **One event of the node**, delivered nothing but responses on the connection. -/
theorem asks_step (hattached : ∀ a < w.next, (w.clients a).Attached)
    (ha : (nodeSystem uv).allowed w e) (hsettled : PeerOut c w → Settled c w)
    (hresponses : ∀ cb, e = .client c cb → ∀ m ∈ cb.delivers (w.clients c), m.IsResponse)
    (hpeer : PeerOut c (nodeStep uv w e)) : PeerOut c w ∧ Settled c (nodeStep uv w e) ∧
      (AtClient Client.Asks c (nodeStep uv w e) ↔ AtClient Client.Asks c w ∧ QuietAt uv c w e) := by
  obtain ⟨hnext, -, hkind⟩ := keeps_step hattached ha
  have hbefore : PeerOut c w := fun hc =>
    (hkind c hc).symm.trans (hpeer (Nat.lt_of_lt_of_le hc hnext))
  refine ⟨hbefore, ?_⟩
  by_cases hold : c < w.next
  · have hc := Nat.lt_of_lt_of_le hold hnext
    have hreduce : ∀ {J : Client → Prop} {w : NodeWorld}, c < w.next →
        (AtClient J c w ↔ J (w.clients c)) := fun hlt => ⟨fun h => h hlt, fun h _ => h⟩
    rw [hreduce hc, hreduce hold, Settled, hreduce hc]
    by_cases hown : ∃ cb, e = .client c cb
    · obtain ⟨cb, rfl⟩ := hown
      exact asks_callback (hbefore hold) (hattached c hold) (hsettled hbefore hold)
        (hresponses cb rfl)
    · rw [not_exists] at hown
      obtain ⟨hstate, hsent⟩ := asks_elsewhere uv hown hold
      rw [hstate, Client.Asks, hsent]
      exact ⟨hsettled hbefore hold, (and_iff_left (quietAt_elsewhere hown)).symm⟩
  · -- the client is not there yet
    have hown : ∀ cb, e ≠ .client c cb := by
      rintro cb rfl
      exact hold ha.2.1
    have hfresh := (bystander_fresh uv c).elsewhere.step hown fun hc => absurd hc hold
    refine ⟨fun hc => (hfresh hc (hpeer hc)).1, iff_of_true (fun hc m hm => ?_)
      ⟨fun hc => absurd hc hold, quietAt_elsewhere hown⟩⟩
    rw [(hfresh hc (hpeer hc)).2] at hm
    cases hm

end

/-! ## The run -/

/-- A node and a server, and the events that led to them. -/
structure Linked (nuv suv : Uv) (c d : ClientId) (es : List InteropEvent) (i : Interop) : Prop where
  attached : ∀ a < i.node.next, (i.node.clients a).Attached
  sane : ServerSane i.server.world
  responses : ∀ m ∈ (i.server.world.clients d).sent, m.IsResponse
  peer : PeerOut c i.node → Settled c i.node ∧
    (AtClient Client.Asks c i.node ↔
      (interopSystem nuv suv c d).Along (Interop.Quiet nuv c) Interop.init es) ∧
    ((interopSystem nuv suv c d).Along (Interop.Quiet nuv c) Interop.init es →
      (interopSystem nuv suv c d).Along (Interop.Served suv d) Interop.init es)

section

variable {nuv suv : Uv} {c d : ClientId} {es : List InteropEvent}

/-- **One event**, at either end. -/
theorem Linked.step {e : InteropEvent}
    (h : Linked nuv suv c d es ((interopSystem nuv suv c d).run Interop.init es))
    (ha : (interopSystem nuv suv c d).allowed
      ((interopSystem nuv suv c d).run Interop.init es) e) :
    Linked nuv suv c d (es ++ [e]) ((interopSystem nuv suv c d).step
      ((interopSystem nuv suv c d).run Interop.init es) e) := by
  have hquiet := (interopSystem nuv suv c d).along_snoc (Interop.Quiet nuv c) Interop.init es e
  have hserved := (interopSystem nuv suv c d).along_snoc (Interop.Served suv d) Interop.init es e
  generalize (interopSystem nuv suv c d).run Interop.init es = i at h ha hquiet hserved ⊢
  cases e with
  | node e =>
    obtain ⟨ha, hlink⟩ := ha
    obtain ⟨-, hattached, -⟩ := keeps_step h.attached ha
    refine ⟨hattached, h.sane, h.responses, fun hpeer => ?_⟩
    have hresponses : ∀ cb, e = .client c cb → ∀ m ∈ cb.delivers (i.node.clients c),
        m.IsResponse := by
      rintro cb rfl m hm
      have hdelivers : i.toNode c (.client c cb) = cb.delivers (i.node.clients c) := if_pos rfl
      exact h.responses m (hlink m (by rw [hdelivers]; exact hm)).2
    obtain ⟨hbefore, hsettled, hstep⟩ := asks_step h.attached ha
      (fun hpeer => (h.peer hpeer).1) hresponses hpeer
    obtain ⟨-, hasks, hwell⟩ := h.peer hbefore
    refine ⟨hsettled, ?_, fun halong => ?_⟩
    · rw [hquiet]
      exact hstep.trans (and_congr_left' hasks)
    · rw [hquiet] at halong
      rw [hserved]
      exact ⟨hwell halong.1, trivial⟩
  | server e =>
    obtain ⟨ha, hlink⟩ := ha
    refine ⟨h.attached, serverSane_step _ e h.sane ha, responses_step h.sane ha h.responses,
      fun hpeer => ?_⟩
    obtain ⟨hsettled, hasks, hwell⟩ := h.peer hpeer
    refine ⟨hsettled, ?_, fun halong => ?_⟩
    · rw [hquiet]
      exact hasks.trans (and_iff_left trivial).symm
    · rw [hquiet] at halong
      rw [hserved]
      refine ⟨hwell halong.1, served_step h.sane ha fun m hm => ?_⟩
      obtain ⟨hc, hsent⟩ := hlink m hm
      exact hasks.mpr halong.1 hc m hsent

theorem linked_run (hv : (interopSystem nuv suv c d).Valid Interop.init es) :
    Linked nuv suv c d es ((interopSystem nuv suv c d).run Interop.init es) := by
  refine System.run_invariant_recorded (P := fun _ _ => True) (I := Linked nuv suv c d)
    (fun es e h ha _ => h.step ha) ⟨fun a ha => ?_, serverSane_init, fun m hm => ?_, fun _ => ?_⟩ hv
    ((interopSystem nuv suv c d).along_of_forall (fun _ _ => trivial) _ _)
  · exact absurd ha (Nat.not_lt_zero a)
  · cases hm
  · exact ⟨fun hc => absurd hc (Nat.not_lt_zero c),
      iff_of_true (fun hc => absurd hc (Nat.not_lt_zero c)) trivial, fun _ => trivial⟩

end

/-- **Node and server interoperate**, in every run in which an outgoing peer of the node is
    connected to the server: exactly if the node, whenever it would gossip on the connection, has nothing to
    tell. -/
theorem interoperates_iff {nuv suv : Uv} {c d : ClientId} {es : List InteropEvent}
    (hv : (interopSystem nuv suv c d).Valid Interop.init es)
    (hc : c < ((interopSystem nuv suv c d).run Interop.init es).node.next)
    (hk : (((interopSystem nuv suv c d).run Interop.init es).node.clients c).kind =
      .peerClientOut) :
    Interoperates nuv suv c d es ↔
      (interopSystem nuv suv c d).Along (Interop.Quiet nuv c) Interop.init es := by
  obtain ⟨-, hasks, hwell⟩ := (linked_run hv).peer fun _ => hk
  constructor
  · intro h
    exact hasks.mp fun _ m hm => (handled_iff d m).mp (h.handled m hm)
  · intro halong
    exact ⟨fun m hm => (handled_iff d m).mpr (hasks.mpr halong hc m hm), hwell halong⟩

/-- The node dials the server by number, and so learns no other address for it: ping and handshake
    arrive and are answered. -/
theorem interoperates_by_number :
    Interoperates Uv.cooperative Uv.cooperative 0 0
      [.server (.listen { listenPort := 5002, listenPortRange := 1 }), .server .startUvLoop,
        .server .setName,
        .node (.start
          { extraPeers := ["127.0.0.1:5002".toList], listenPort := 5000, listenPortRange := 1 }),
        .server (.newConnection 0 0), .node (.client 0 (.connected 0)),
        .server (.client 0 (.read 73 (some
          "PING Ping_from_:5000_to_127.0.0.1:5002_0\nHANDSH V01 127.0.0.1:5002 :5000\n".toList))),
        .node (.client 0 (.wrote 0)),
        .node (.client 0 (.read 37 (some "HANDSHRESP V01 :5002 127.0.0.1:35091\n".toList)))] := by
  refine (interoperates_iff ?_ ?_ ?_).mpr ?_
  · decide
  · decide
  · decide
  · decide

/-- Both programs with their default parameters: the server has port 5000, and the node, which found
    it taken, dials `localhost:5000` from 5001. The server reads what it is sent. -/
def defaultRun : List InteropEvent :=
  [.server (.listen { listenPort := 5000, listenPortRange := 5 }), .server .startUvLoop,
    .server .setName, .node (.start { listenPort := 5000, listenPortRange := 10 }),
    .server (.newConnection 0 0), .node (.client 0 (.connected 0)),
    .server (.client 0 (.read 62 (some
      "PING Ping_from_:5001_to_localhost:5000_0\nOPEER 127.0.0.1 5000\n".toList)))]

/-- The second message the node sends tells the server to connect to the server. -/
theorem gossip_unhandled :
    (interopSystem Uv.occupied5000 Uv.cooperative 0 0).Valid Interop.init defaultRun ∧
    0 < ((interopSystem Uv.occupied5000 Uv.cooperative 0 0).run Interop.init defaultRun).node.next ∧
    (((interopSystem Uv.occupied5000 Uv.cooperative 0 0).run Interop.init
      defaultRun).node.clients 0).kind = .peerClientOut ∧
    .assertFailed .unhandledMessage ∈ (((interopSystem Uv.occupied5000 Uv.cooperative 0 0).run
      Interop.init defaultRun).server.world.clients 0).acts ∧
    ¬ Interoperates Uv.occupied5000 Uv.cooperative 0 0 defaultRun := by
  refine ⟨by decide, by decide, by decide, by decide, fun h => ?_⟩
  have htold := h.handled (.otherPeer "127.0.0.1".toList 5000) (by decide)
  exact (handled_iff 0 _).mp htold

end TcpUv
