import TcpUv.Proof.TwoRuns

/-!
# Connecting again

`connect()` admits a connection that was closed, and resets the state, the stream and the send
counter. It does not reset everything an object keeps: the receive buffer is left with the
beginning of a line the other end did not finish, and a `PeerClientOut` goes on with the counter
of its pings, because the first of them is sent before the counter is reset.

`Fresh` says of two states of one object that nothing after a reconnect depends on which of them
it starts from. It is a matter of these two fields: what else the past has left is forgotten
(`Client.forget`) by a relation that every event preserves (`pairRule_alike`).
-/

set_option autoImplicit false

namespace TcpUv

open Lib

/-! ## What is forgotten -/

/-- An entry, without the number of the handle. -/
def Act.anonymous : Act → Act
  | .uvWrite stream fr => .uvWrite (stream.map fun _ => 0) fr
  | .uvReadStart stream => .uvReadStart (stream.map fun _ => 0)
  | .uvClose _ => .uvClose 0
  | a => a

theorem Act.anonymous_of_handleless {a : Act} (h : a.isHandleless = true) : a.anonymous = a := by
  cases a <;> first | rfl | cases h

/-- What is left of a write. -/
def Edit.remembered : Edit → Client → Client
  | .setCanonPeerAddr _ => id
  | .newTimer => id
  | .startTimer => id
  | e => e.on

namespace Client

/-- A connection without its first `n` acts, and without what they have left that neither libuv
    nor a method looks at: the canonical address, the timer, the number of the handle. -/
def forget (n : Nat) (k : Client) : Client :=
  { k with
    myCanonPeerAddr := []
    myUvStream := k.myUvStream.map fun _ => 0
    myTimer := false
    timerActive := false
    tcp := { k.tcp with handle := 0 }
    acts := (k.acts.drop n).map Act.anonymous }

/-- Two connections that differ in nothing but their past. -/
structure Alike (n n' : Nat) (k k' : Client) : Prop where
  attached : k.Attached ∧ k'.Attached
  acts : n ≤ k.acts.length ∧ n' ≤ k'.acts.length
  forget : k.forget n = k'.forget n'

/-- A move of a connection, and what it is once the past is forgotten. -/
structure Forgetful (f g : Client → Client) : Prop where
  attached : ∀ {k : Client}, k.Attached → (f k).Attached
  acts : ∀ k : Client, k.acts.length ≤ (f k).acts.length
  forget : ∀ {k : Client} {n : Nat}, n ≤ k.acts.length → (f k).forget n = g (k.forget n)

theorem forget_acts {n : Nat} {k : Client} (h : n ≤ k.acts.length) (l : List Act) :
    ((k.acts ++ l).drop n).map Act.anonymous = (k.forget n).acts ++ l.map Act.anonymous := by
  rw [List.drop_append_of_le_length h, List.map_append]
  rfl

namespace Forgetful

theorem comp {f g f' g' : Client → Client} (h : Forgetful f g) (h' : Forgetful f' g') :
    Forgetful (fun k => f' (f k)) (fun k => g' (g k)) where
  attached ha := h'.attached (h.attached ha)
  acts k := (h.acts k).trans (h'.acts (f k))
  forget {k n} hn := by rw [h'.forget (hn.trans (h.acts k)), h.forget hn]

theorem log {a : Act} (ha : a.isHandleless = true) : Forgetful (Client.log a) (Client.log a) where
  attached h := h
  acts k := by simp [Client.log]
  forget {k n} hn := by
    have hacts := forget_acts hn [a]
    rw [List.map_singleton, Act.anonymous_of_handleless ha] at hacts
    unfold Client.log
    rw [← hacts]
    rfl

theorem setState (s : State) : Forgetful (Client.setState s) (Client.setState s) :=
  have hset : Forgetful (fun k => { k with myState := s }) (fun k => { k with myState := s }) :=
    ⟨id, fun _ => le_rfl, fun _ => rfl⟩
  hset.comp (log (a := .state s) rfl)

theorem uvWrite (fr : Str) (res : Int) :
    Forgetful (Client.uvWrite fr res) (Client.uvWrite fr res) where
  attached h := attached_uvWrite h
  acts k := by simp [Client.uvWrite]
  forget {k n} hn := by
    have hacts := forget_acts hn [.uvWrite k.myUvStream fr]
    unfold Client.uvWrite
    unfold Client.forget at hacts ⊢
    dsimp only at hacts ⊢
    rw [hacts, Option.isSome_map]
    split <;> rfl

theorem uvReadStart (res : Int) :
    Forgetful (Client.uvReadStart res) (Client.uvReadStart res) where
  attached h := attached_uvReadStart h
  acts k := by simp [Client.uvReadStart]
  forget {k n} hn := by
    have hacts := forget_acts hn [.uvReadStart k.myUvStream]
    unfold Client.uvReadStart
    unfold Client.forget at hacts ⊢
    dsimp only at hacts ⊢
    rw [hacts, Option.isSome_map]
    split <;> rfl

/-- The stream is taken away and its handle closed. -/
theorem uvClose (hd : Handle) :
    Forgetful (fun k => { k with myUvStream := none }.uvClose hd)
      (fun k => { k with myUvStream := none }.uvClose 0) where
  attached _ := fun hs => nomatch hs
  acts k := by simp [Client.uvClose]
  forget {k n} hn := by
    have hacts := forget_acts hn [.uvClose hd]
    unfold Client.uvClose
    unfold Client.forget at hacts ⊢
    dsimp only at hacts ⊢
    rw [hacts]
    rfl

theorem shut : Forgetful Client.shut Client.shut where
  attached _ := attached_shut _
  acts k := by
    unfold Client.shut
    split <;> simp [Client.uvClose, Client.setState, Client.log]
  forget {k n} hn := by
    have hclosing := (log (a := .closeCall) rfl).comp (setState .closing)
    have hstream : (k.forget n).myUvStream = k.myUvStream.map fun _ => 0 := rfl
    unfold Client.shut
    rw [hstream]
    -- with or without a handle: forgetting keeps which
    cases k.myUvStream with
    | none => exact hclosing.forget hn
    | some hd => exact (hclosing.comp (uvClose hd)).forget hn

theorem edit {e : Edit} {k : Client} (he : e.Fits k) : Forgetful e.on e.remembered := by
  cases e with
  | log a => exact log he
  | setState s => exact setState s
  | _ => exact ⟨id, fun _ => le_rfl, fun _ => rfl⟩

theorem dialled : Forgetful Client.dialled fun k =>
    { (k.log .connectCall).setState .connecting with
      myUvStream := some 0, tcp := {}, mySendCounter := 0 } where
  attached _ _ := rfl
  acts k := by simp [Client.dialled, Client.setUvStream, Client.setState, Client.log]
  forget {k n} hn := by
    rw [← ((log (a := .connectCall) rfl).comp (setState .connecting)).forget hn]
    rfl

theorem establish (uv : Uv) (c : ClientId) :
    Forgetful (Client.establish uv c) (Client.setState .connected) where
  attached {k} h := by
    obtain ⟨canon, heq⟩ := establish_eq uv c k
    rw [heq]
    exact h
  acts k := by
    obtain ⟨canon, heq⟩ := establish_eq uv c k
    rw [heq]
    simp [Client.setState]
  forget {k n} hn := by
    obtain ⟨canon, heq⟩ := establish_eq uv c k
    rw [heq, ← (setState .connected).forget hn]
    rfl

end Forgetful

theorem Alike.moved {n n' : Nat} {k k' : Client} (h : k.Alike n n' k') {f f' g : Client → Client}
    (hf : Forgetful f g) (hf' : Forgetful f' g) : (f k).Alike n n' (f' k') where
  attached := ⟨hf.attached h.attached.1, hf'.attached h.attached.2⟩
  acts := ⟨h.acts.1.trans (hf.acts k), h.acts.2.trans (hf'.acts k')⟩
  forget := by rw [hf.forget h.acts.1, hf'.forget h.acts.2, h.forget]

/-- What is not forgotten is the same. -/
theorem Alike.field {n n' : Nat} {k k' : Client} (h : k.Alike n n' k') {β : Type} (f : Client → β)
    (hf : ∀ (n : Nat) (k : Client), f (k.forget n) = f k) : f k' = f k := by
  rw [← hf n k, h.forget, hf]

end Client

/-! ## The property -/

/-- Two libuvs that answer the same on connections that differ in nothing but their past. -/
structure SameAnswers (uv uv' : Uv) (c : ClientId) (n n' : Nat) : Prop where
  write : ∀ k k' : Client, k.Alike n n' k' → uv.write c k = uv'.write c k'
  readStart : ∀ k k' : Client, k.Alike n n' k' → uv.readStart c k = uv'.readStart c k'
  tcpConnect : ∀ k k' : Client, k.Alike n n' k' → uv.tcpConnect c k = uv'.tcpConnect c k'

/-- **Fresh**: whichever of the two states the object is connected again in, from then on the same
    events deliver the same messages and write the same frames. -/
def Fresh (uv uv' : Uv) (c : ClientId) (w w' : World Script) : Prop :=
  let n := (w.clients c).acts.length
  let n' := (w'.clients c).acts.length
  SameAnswers uv uv' c n n' → ∀ es, (ownedSystem uv c).Valid w (.event .connect :: es) →
    (ownedSystem uv' c).Valid w' (.event .connect :: es) →
    let k := ((ownedSystem uv c).run w (.event .connect :: es)).clients c
    let k' := ((ownedSystem uv' c).run w' (.event .connect :: es)).clients c
    (k.acts.drop n).filterMap Act.handedOver = (k'.acts.drop n').filterMap Act.handedOver ∧
      (k.acts.drop n).filterMap Act.writtenFrame = (k'.acts.drop n').filterMap Act.writtenFrame

/-! ## After the reconnect -/

/-- What an entry delivers or writes is not. -/
theorem Client.Alike.filterMap_acts {n n' : Nat} {k k' : Client} (h : k.Alike n n' k') {β : Type}
    {f : Act → Option β} (hf : ∀ a : Act, f a.anonymous = f a) :
    (k.acts.drop n).filterMap f = (k'.acts.drop n').filterMap f := by
  have hacts : (k.acts.drop n).map Act.anonymous = (k'.acts.drop n').map Act.anonymous :=
    congrArg Client.acts h.forget
  have hkept : ∀ l : List Act, l.filterMap f = (l.map Act.anonymous).filterMap f := by
    intro l
    rw [List.filterMap_map]
    exact List.filterMap_congr fun a _ => (hf a).symm
  rw [hkept, hkept (k'.acts.drop n'), hacts]

theorem pairRule_alike {uv uv' : Uv} {c : ClientId} {n n' : Nat}
    (h : SameAnswers uv uv' c n n') : PairRule uv uv' c (Client.Alike n n') where
  agree hk :=
    ⟨hk.field Client.kind fun _ _ => rfl, hk.field Client.myState fun _ _ => rfl,
      hk.field Client.myPeerAddr fun _ _ => rfl, hk.field Client.myReceiveBuffer fun _ _ => rfl,
      hk.field Client.myPingToSend fun _ _ => rfl, hk.field Client.mySendCounter fun _ _ => rfl,
      hk.field Client.peerSendCounter fun _ _ => rfl⟩
  attached hk := hk.attached
  write hk := h.write _ _ hk
  readStart hk := h.readStart _ _ hk
  tcpConnect hk := h.tcpConnect _ _ hk
  edit _ he hk := hk.moved (.edit he) (.edit he)
  uvWrite fr res hk := hk.moved (.uvWrite fr res) (.uvWrite fr res)
  uvReadStart res hk := hk.moved (.uvReadStart res) (.uvReadStart res)
  shut hk := hk.moved .shut .shut
  dialled hk := hk.moved .dialled .dialled
  establish hk := hk.moved (.establish uv c) (.establish uv' c)

/-! ## Before the reconnect -/

/-- An outgoing connection, just constructed. -/
inductive OutInit (c : ClientId) : World Script → Prop where
  | netClientOut (w : World Script) (host : Str) (port : Int32) (pingToSend : Int32)
      (hc : w.next = c) : OutInit c (w.create (NetClientOut.new host port pingToSend))
  | peerClientOut (w : World Script) (host : Str) (port : Int32) (hc : w.next = c) :
      OutInit c (w.create (PeerClientOut.new host port))

/-- What a client keeps from its constructor. -/
structure Client.Made (k₀ k : Client) : Prop where
  kind : k.kind = k₀.kind
  myPeerAddr : k.myPeerAddr = k₀.myPeerAddr
  myHost : k.myHost = k₀.myHost
  myPort : k.myPort = k₀.myPort
  myPingToSend : k.myPingToSend = k₀.myPingToSend
  attached : k.Attached
  /-- only a peer counts its pings apart -/
  single : k.kind ≠ .peerClientOut → k.peerSendCounter = 0

namespace Client.Made

variable {k₀ k k' : Client}

/-- A move that leaves these fields alone. -/
theorem moved (h : k₀.Made k) (ha : k'.Attached)
    (hk : k' = { k' with kind := k.kind, myPeerAddr := k.myPeerAddr, myHost := k.myHost,
                         myPort := k.myPort, myPingToSend := k.myPingToSend,
                         peerSendCounter := k.peerSendCounter }) : k₀.Made k' := by
  rw [hk] at ha ⊢
  exact ⟨h.kind, h.myPeerAddr, h.myHost, h.myPort, h.myPingToSend, ha, h.single⟩

theorem edit (h : k₀.Made k) {e : Edit} (he : e.Fits k) : k₀.Made (e.on k) := by
  cases e with
  | setPeerSendCounter n =>
    -- what is not a peer can only reset it
    refine ⟨h.kind, h.myPeerAddr, h.myHost, h.myPort, h.myPingToSend, h.attached, fun hk => ?_⟩
    by_contra hn
    exact hk (he hn)
  | _ => exact h.moved h.attached rfl

theorem shut (h : k₀.Made k) : k₀.Made k.shut := by
  refine h.moved (attached_shut k) ?_
  unfold Client.shut
  split <;> rfl

theorem establish (h : k₀.Made k) (uv : Uv) (c : ClientId) : k₀.Made (k.establish uv c) := by
  obtain ⟨canon, heq⟩ := establish_eq uv c k
  rw [heq]
  exact h.moved h.attached rfl

end Client.Made

/-- A run beside itself: the constructor's fields stay. -/
theorem pairRule_made (uv : Uv) (c : ClientId) (k₀ : Client) :
    PairRule uv uv c fun k k' => k' = k ∧ k₀.Made k where
  agree h := by
    rw [h.1]
    exact ⟨rfl, rfl, rfl, rfl, rfl, rfl, rfl⟩
  attached h := ⟨h.2.attached, by rw [h.1]; exact h.2.attached⟩
  write h := by rw [h.1]
  readStart h := by rw [h.1]
  tcpConnect h := by rw [h.1]
  edit e he h := ⟨by rw [h.1], h.2.edit he⟩
  uvWrite fr res h := ⟨by rw [h.1], h.2.moved (Client.attached_uvWrite h.2.attached) rfl⟩
  uvReadStart res h := ⟨by rw [h.1], h.2.moved (Client.attached_uvReadStart h.2.attached) rfl⟩
  shut h := ⟨by rw [h.1], h.2.shut⟩
  dialled h := ⟨by rw [h.1], h.2.moved (fun _ => rfl) rfl⟩
  establish h := ⟨by rw [h.1], h.2.establish uv c⟩

theorem OutInit.made {c : ClientId} {w : World Script} (h : OutInit c w) :
    (w.clients c).Made (w.clients c) := by
  cases h with
  | netClientOut w host port ping hc =>
    subst hc
    rw [World.clients_create_next]
    exact ⟨rfl, rfl, rfl, rfl, rfl, (fun hs => nomatch hs), fun _ => rfl⟩
  | peerClientOut w host port hc =>
    subst hc
    rw [World.clients_create_next]
    exact ⟨rfl, rfl, rfl, rfl, rfl, (fun hs => nomatch hs), fun _ => rfl⟩

/-- What is left of an object by the time it is connected again. -/
theorem OutInit.run {c : ClientId} {w : World Script} (h : OutInit c w) (uv : Uv)
    (es : List OwnedEvent) :
    (w.clients c).Made (((ownedSystem uv c).run w es).clients c) ∧
      ((ownedSystem uv c).run w es).app.myName = w.app.myName := by
  have hstart : PairRule.Beside (fun k k' => k' = k ∧ (w.clients c).Made k) c w.app.myName w w :=
    ⟨⟨rfl, h.made⟩, rfl, rfl⟩
  have hend := (pairRule_made uv c (w.clients c)).run es hstart
  exact ⟨hend.clients.2, hend.myName⟩

/-- `connect()` writes the past off, but for the buffer and the second counter. -/
theorem alike_dialled {k₀ k k' : Client} (h : k₀.Made k) (h' : k₀.Made k')
    (hbuffer : k.myReceiveBuffer = k'.myReceiveBuffer)
    (hcounter : k₀.kind = .peerClientOut → k.peerSendCounter = k'.peerSendCounter) :
    k.dialled.Alike k.acts.length k'.acts.length k'.dialled where
  attached := ⟨fun _ => rfl, fun _ => rfl⟩
  acts := ⟨Client.Forgetful.dialled.acts k, Client.Forgetful.dialled.acts k'⟩
  forget := by
    -- a client that is no peer never used it
    have hcounters : k.peerSendCounter = k'.peerSendCounter := by
      by_cases hk : k₀.kind = .peerClientOut
      · exact hcounter hk
      · rw [h.single (by rw [h.kind]; exact hk), h'.single (by rw [h'.kind]; exact hk)]
    rw [Client.Forgetful.dialled.forget le_rfl, Client.Forgetful.dialled.forget le_rfl]
    unfold Client.forget Client.setState Client.log
    rw [List.drop_length, List.drop_length, hbuffer, hcounters, h.kind, h'.kind, h.myPeerAddr,
      h'.myPeerAddr, h.myHost, h'.myHost, h.myPort, h'.myPort, h.myPingToSend, h'.myPingToSend]

/-- **A reconnect is fresh** when the two earlier connections have left the same text in the
    receive buffer, and the pings of a peer the same count. -/
theorem reconnect_fresh (uv uv' : Uv) (c : ClientId) {w : World Script} (hw : OutInit c w)
    {es es' : List OwnedEvent}
    (hclosed : (((ownedSystem uv c).run w es).clients c).myState = .closed)
    (hclosed' : (((ownedSystem uv' c).run w es').clients c).myState = .closed)
    (hbuffer : (((ownedSystem uv c).run w es).clients c).myReceiveBuffer =
      (((ownedSystem uv' c).run w es').clients c).myReceiveBuffer)
    (hcounter : (w.clients c).kind = .peerClientOut →
      (((ownedSystem uv c).run w es).clients c).peerSendCounter =
        (((ownedSystem uv' c).run w es').clients c).peerSendCounter) :
    Fresh uv uv' c ((ownedSystem uv c).run w es) ((ownedSystem uv' c).run w es') := by
  obtain ⟨hmade, hname⟩ := hw.run uv es
  obtain ⟨hmade', hname'⟩ := hw.run uv' es'
  have hadmits : ∀ {k : Client}, k.myState = .closed → ¬ k.Refuses := by
    intro k hs hrefuses
    unfold Client.Refuses at hrefuses
    rw [hs] at hrefuses
    exact absurd hrefuses.2 (Nat.lt_irrefl _)
  -- nothing depends on what libuv may deliver: the relation survives any event
  intro hanswers later _ _
  have hrule := pairRule_alike hanswers
  have hconnected := hrule.connect (hadmits hclosed) (hadmits hclosed') hname hname'
    (alike_dialled hmade hmade' hbuffer hcounter)
  have halike := (hrule.run later hconnected).clients
  exact ⟨halike.filterMap_acts fun a => by cases a <;> rfl,
    halike.filterMap_acts fun a => by cases a <;> rfl⟩

theorem sameAnswers_cooperative (c : ClientId) (n n' : Nat) :
    SameAnswers Uv.cooperative Uv.cooperative c n n' where
  write _ _ _ := rfl
  readStart k k' h := by
    have hreading : k'.tcp.reading = k.tcp.reading := h.field (·.tcp.reading) fun _ _ => rfl
    unfold Uv.cooperative
    dsimp only
    rw [hreading]
  tcpConnect _ _ _ := rfl

/-- A connection that read a line of no meaning, and one that was never established: neither has
    left anything in the buffer. -/
theorem reconnect_fresh_line :
    let w := World.create (World.init {}) (NetClientOut.new "h".toList 7000 3)
    Fresh Uv.cooperative Uv.cooperative 0
      ((ownedSystem Uv.cooperative 0).run w
        [.event .connect, .event (.callback (.connected 0) [] []),
          .event (.callback (.wrote 0) [] []),
          .event (.callback (.read 3 (some ['H', 'I', '\n'])) [] []),
          .event (.callback .closed [] [])])
      ((ownedSystem Uv.cooperative 0).run w
        [.event .connect, .event (.callback (.connected (-111)) [] []), .calls [.close],
          .event (.callback .closed [] [])]) :=
  reconnect_fresh Uv.cooperative Uv.cooperative 0 (.netClientOut _ _ _ _ rfl) (by decide)
    (by decide) (by decide) (by decide)

/-- One of the two was closed in the middle of a line: the other end's next line, sent on the new
    connection, completes it to a ping. -/
theorem reconnect_leftover :
    let w := World.create (World.init {}) (NetClientOut.new "h".toList 7000 3)
    let es : List OwnedEvent := [.event .connect, .event (.callback (.connected 0) [] []),
      .event (.callback (.wrote 0) [] []), .event (.callback (.read 2 (some ['P', 'I'])) [] []),
      .event (.callback .closed [] [])]
    let es' : List OwnedEvent := [.event .connect, .event (.callback (.connected 0) [] []),
      .event (.callback (.wrote 0) [] []), .event (.callback (.read (-4095) none) [] []),
      .event (.callback .closed [] [])]
    (ownedSystem Uv.cooperative 0).Valid w es ∧ (ownedSystem Uv.cooperative 0).Valid w es' ∧
      (((ownedSystem Uv.cooperative 0).run w es).clients 0).myState = .closed ∧
      (((ownedSystem Uv.cooperative 0).run w es').clients 0).myState = .closed ∧
      ¬ Fresh Uv.cooperative Uv.cooperative 0 ((ownedSystem Uv.cooperative 0).run w es)
        ((ownedSystem Uv.cooperative 0).run w es') := by
  refine ⟨by decide, by decide, by decide, by decide, fun h => ?_⟩
  have hsame := h (sameAnswers_cooperative 0 _ _)
    [.event (.callback (.connected 0) [] []), .event (.callback (.wrote 0) [] []),
      .event (.callback (.read 5 (some ['N', 'G', ' ', 'x', '\n'])) [] [])] (by decide) (by decide)
  exact absurd hsame.1 (by decide)

end TcpUv
