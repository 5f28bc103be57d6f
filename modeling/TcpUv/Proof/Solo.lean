import TcpUv.Proof.Conn
import TcpUv.Proof.Rules

/-!
# A connection under a script, callback by callback

The closed forms of `Conn.lean`, carried through an app's reaction (`calls`), the receive
loop (`rounds`, over the lines a buffer is cut into) and `process()`. A property of a
connection that every one of these operations preserves is a `SoloRule`; the callbacks'
own writes — the connect bookkeeping, the state set by `onConnect`, `onClose` — stay with
the results that use it, because that is where they differ.
-/

set_option autoImplicit false

namespace TcpUv

/-! ## Reactions -/

namespace Client

/-- One call of an app. -/
def call (k : Client) : AppCall → Client
  | .reply m res => k.send m res
  | .close => k.shut
  | .setCanonPeerAddr a => { k with myCanonPeerAddr := a }

def calls (cs : List AppCall) (k : Client) : Client := cs.foldl call k

theorem attached_call {k : Client} (h : k.Attached) (a : AppCall) : (k.call a).Attached := by
  cases a with
  | reply m res => exact attached_send h
  | close => exact attached_shut k
  | setCanonPeerAddr a => exact h

theorem call_ne_closed {k : Client} (h : k.myState ≠ .closed) (a : AppCall) :
    (k.call a).myState ≠ .closed := by
  cases a with
  | reply m res =>
    show (k.send m res).myState ≠ .closed
    unfold send
    split
    · exact h
    · split
      · rw [myState_shut]
        decide
      · exact fun h => nomatch h
  | close =>
    show k.shut.myState ≠ .closed
    rw [myState_shut]
    decide
  | setCanonPeerAddr a => exact h

theorem attached_calls (cs : List AppCall) : ∀ {k : Client}, k.Attached → (k.calls cs).Attached := by
  induction cs with
  | nil => intro k h; exact h
  | cons a cs ih => intro k h; exact ih (attached_call h a)

end Client

section

variable (uv : Uv) {c : ClientId} {w : World Script}

theorem script_call_eq (h : (w.clients c).Attached) (a : AppCall) :
    Script.call uv c w a = w.modify c (Client.call · a) := by
  cases a with
  | reply m res => exact sendMessage_eq (uv.answering res) h m
  | close => exact close_eq h
  | setCanonPeerAddr a => rfl

theorem script_calls_eq (cs : List AppCall) : ∀ {w : World Script}, (w.clients c).Attached →
    Script.calls uv c cs w = w.modify c (Client.calls cs) := by
  induction cs with
  | nil =>
    intro w _
    simp [Script.calls, World.modify, Client.calls]
  | cons a cs ih =>
    intro w h
    have hcall := script_call_eq uv h a
    have ha : ((w.modify c (Client.call · a)).clients c).Attached := by
      rw [World.clients_modify_self]
      exact Client.attached_call h a
    show Script.calls uv c cs (Script.call uv c w a) = _
    rw [hcall, ih ha, World.modify_modify]
    rfl

theorem clients_script_calls (cs : List AppCall) (h : (w.clients c).Attached) :
    (Script.calls uv c cs w).clients c = (w.clients c).calls cs := by
  rw [script_calls_eq uv cs h, World.clients_modify_self]

theorem app_script_calls (cs : List AppCall) (h : (w.clients c).Attached) :
    (Script.calls uv c cs w).app = w.app := by
  rw [script_calls_eq uv cs h, World.app_modify]

end

/-- A call that closes the client, when it is still open. -/
def AppCall.closes : AppCall → Bool
  | .reply _ res => res ≠ 0
  | .close => true
  | .setCanonPeerAddr _ => false

def reactionCloses (r : List AppCall) : Bool := r.any AppCall.closes

/-- A reaction that does not close leaves a client that just received something where it
    can go on. -/
theorem calls_not_closing (r : List AppCall) : ∀ {k : Client}, reactionCloses r = false →
    k.myState = .received ∨ k.myState = .sending →
    (k.calls r).myState = .received ∨ (k.calls r).myState = .sending := by
  induction r with
  | nil => intro k _ h; exact h
  | cons a r ih =>
    intro k hr h
    obtain ⟨ha, hr⟩ := Bool.or_eq_false_iff.mp hr
    apply ih hr
    cases a with
    | reply m res =>
      have hopen : ¬ (k.myState = .closing ∨ k.myState = .closed) := by
        rcases h with h | h <;> rw [h] <;> decide
      have hres : ¬ res ≠ 0 := by simpa [AppCall.closes] using ha
      right
      show (k.send m res).myState = .sending
      rw [Client.send, if_neg hopen, if_neg hres]
      rfl
    | close => exact absurd ha (by simp [AppCall.closes])
    | setCanonPeerAddr a => exact h

/-! ## The receive loop -/

/-- The lines a buffer is cut into: what is left after each, and the message it parses to;
    and whether an exception ends the loop. -/
def cuts : Nat → Str → List (Str × Option Message) × Bool
  | 0, _ => ([], false)
  | fuel + 1, buffer =>
      match cutLine buffer with
      | .error _ => ([], true)
      | .ok none => ([], false)
      | .ok (some (msg1, rest)) =>
          match parseLine msg1 with
          | .error _ => ([(rest, none)], true)
          | .ok om => ((rest, om) :: (cuts fuel rest).1, (cuts fuel rest).2)

/-- The messages a buffer yields. -/
def deliveries (buffer : Str) : List Message := (cuts buffer.length buffer).1.filterMap Prod.snd

/-- Whether handing them over ends in an exception of the parser. -/
def cutThrows (buffer : Str) : Bool := (cuts buffer.length buffer).2

/-- What the loop makes of a client, round by round, with the app's reactions. -/
def Client.rounds : List (Str × Option Message) → List (List AppCall) → Client → Client
  | [], _, k => k
  | (rest, none) :: cs, rs, k => rounds cs rs (k.setReceiveBuffer rest)
  | (rest, some m) :: cs, rs, k =>
      rounds cs rs.tail (((k.setReceiveBuffer rest).handOver m).calls (rs.headD []))

/-- The buffer `onRead` hands to the loop. -/
def Client.buffered (nread : Int) (base : Str) (k : Client) : Str :=
  k.myReceiveBuffer ++ base.take nread.toNat

section

variable (uv : Uv) {c : ClientId}

@[simp] theorem buffer_shut (k : Client) : k.shut.myReceiveBuffer = k.myReceiveBuffer := by
  unfold Client.shut
  split <;> rfl

theorem buffer_calls (cs : List AppCall) : ∀ k : Client,
    (k.calls cs).myReceiveBuffer = k.myReceiveBuffer := by
  induction cs with
  | nil => intro k; rfl
  | cons a cs ih =>
    intro k
    refine (ih (k.call a)).trans ?_
    cases a with
    | reply m res =>
      show (k.send m res).myReceiveBuffer = _
      unfold Client.send
      split
      · rfl
      · split
        · exact buffer_shut _
        · rfl
    | close => exact buffer_shut k
    | setCanonPeerAddr a => rfl

/-- A reaction, as the loop sees it: the client acted on, the script moved on. -/
theorem messageReceived_script {w : World Script} (h : (w.clients c).Attached) (m : Message) :
    ∃ w', App.messageReceived uv c m w = .returns w' ∧
      w'.clients c = (w.clients c).calls (w.app.reactions.headD []) ∧
      w'.app.reactions = w.app.reactions.tail := by
  refine ⟨Script.messageReceived uv c w, rfl, ?_, ?_⟩
  · exact clients_script_calls (w := { w with app := _ }) uv _ h
  · exact congrArg Script.reactions (app_script_calls
      (w := { w with app := { w.app with reactions := w.app.reactions.tail } }) uv _ h)

/-- **The loop is its rounds**, and it throws when the parser does: the script itself never
    does. -/
theorem receiveLoop_rounds : ∀ (fuel : Nat) {w : World Script}, (w.clients c).Attached →
    (receiveLoop uv c fuel w).world.clients c =
        (w.clients c).rounds (cuts fuel (w.clients c).myReceiveBuffer).1 w.app.reactions ∧
      (receiveLoop uv c fuel w).threw = (cuts fuel (w.clients c).myReceiveBuffer).2 := by
  intro fuel
  induction fuel with
  | zero => intro w _; exact ⟨rfl, rfl⟩
  | succ fuel ih =>
    intro w h
    have hcutAway : ∀ rest, (w.modify c (Client.setReceiveBuffer rest)).clients c =
        (w.clients c).setReceiveBuffer rest := fun rest => World.clients_modify_self _ _ _
    have hgiven : ∀ rest m, ((w.modify c (Client.setReceiveBuffer rest)).modify c
        (Client.handOver m)).clients c = ((w.clients c).setReceiveBuffer rest).handOver m :=
      fun rest m => by rw [World.clients_modify_self, hcutAway]
    have hscript := fun rest m => messageReceived_script uv
      (w := (w.modify c (Client.setReceiveBuffer rest)).modify c (Client.handOver m))
      (by rw [hgiven]; exact h) m
    rw [receiveLoop_succ, cuts]
    have hturn := turnTaken_loopTurn uv c w
    generalize loopTurn uv c w = t at hturn ⊢
    cases hturn with
    | broken hcut | done hcut =>
      simp only [hcut]
      exact ⟨rfl, rfl⟩
    | @malformed line rest e hcut hline =>
      simp only [hcut, hline]
      exact ⟨hcutAway rest, rfl⟩
    | @skipped line rest hcut hline =>
      have hrest := @ih (w.modify c (Client.setReceiveBuffer rest)) (by rw [hcutAway]; exact h)
      rw [hcutAway] at hrest
      simp only [hcut, hline]
      exact hrest
    | @taken line rest m w' hcut hline hgot =>
      obtain ⟨w'', hw'', hclient, hreactions⟩ := hscript rest m
      obtain rfl := Outcome.returns.inj (hgot.symm.trans hw'')
      rw [hgiven] at hclient
      have hattached : (w'.clients c).Attached := by
        rw [hclient]
        exact Client.attached_calls _ h
      have hbuffer : (w'.clients c).myReceiveBuffer = rest := by
        rw [hclient, buffer_calls]
        rfl
      have hrest := ih hattached
      rw [hbuffer, hclient, hreactions] at hrest
      simp only [hcut, hline]
      exact hrest
    | @refused line rest m e w' hcut hline hgot =>
      obtain ⟨w'', hw'', -⟩ := hscript rest m
      exact absurd (hgot.symm.trans hw'') (by simp)

/-- A read with data: the rounds of what is buffered, then `process()` — unless the parser
    threw. -/
theorem onRead_rounds {w : World Script} (h : (w.clients c).Attached) {nread : Int}
    (hpos : 0 < nread) (base : Str) : ∃ w' : World Script,
      w'.clients c = ((w.clients c).setReceiveBuffer ((w.clients c).buffered nread base)).rounds
        (cuts ((w.clients c).buffered nread base).length ((w.clients c).buffered nread base)).1
        w.app.reactions ∧
      ((cutThrows ((w.clients c).buffered nread base) = true ∧
          ∃ e, onRead uv c nread (some base) w = .throws e w') ∨
        (cutThrows ((w.clients c).buffered nread base) = false ∧
          onRead uv c nread (some base) w = .returns (process uv c w'))) := by
  generalize hgot : w.modify c (fun k =>
    k.setReceiveBuffer (k.myReceiveBuffer ++ base.take nread.toNat)) = w₁
  have hclient : w₁.clients c =
      (w.clients c).setReceiveBuffer ((w.clients c).buffered nread base) := by
    rw [← hgot, World.clients_modify_self]
    rfl
  have hreactions : w₁.app.reactions = w.app.reactions := by
    rw [← hgot]
    rfl
  have hread : onRead uv c nread (some base) w =
      (doProcessReceivedBuffer uv c w₁).andThen fun w => .returns (process uv c w) := by
    rw [onRead_data uv hpos, hgot]
  obtain ⟨hrounds, hthrew⟩ := receiveLoop_rounds uv (w := w₁)
    ((w.clients c).buffered nread base).length (by rw [hclient]; exact h)
  have hloop : doProcessReceivedBuffer uv c w₁ =
      receiveLoop uv c ((w.clients c).buffered nread base).length w₁ := by
    unfold doProcessReceivedBuffer
    rw [hclient]
    rfl
  rw [← hloop, hclient, hreactions] at hrounds
  rw [← hloop, hclient] at hthrew
  refine ⟨(doProcessReceivedBuffer uv c w₁).world, hrounds, ?_⟩
  rw [hread]
  cases ho : doProcessReceivedBuffer uv c w₁ with
  | throws e w' =>
    rw [ho] at hthrew
    exact Or.inl ⟨hthrew.symm, e, rfl⟩
  | returns w' =>
    rw [ho] at hthrew
    exact Or.inr ⟨hthrew.symm, rfl⟩

end

theorem kind_calls (cs : List AppCall) : ∀ k : Client, (k.calls cs).kind = k.kind := by
  induction cs with
  | nil => intro k; rfl
  | cons a cs ih =>
    intro k
    refine (ih (k.call a)).trans ?_
    cases a with
    | reply m res =>
      show (k.send m res).kind = _
      unfold Client.send
      split
      · rfl
      · split
        · exact Client.kind_shut _
        · rfl
    | close => exact Client.kind_shut k
    | setCanonPeerAddr a => rfl

theorem kind_rounds (cs : List (Str × Option Message)) : ∀ (rs : List (List AppCall)) (k : Client),
    (k.rounds cs rs).kind = k.kind := by
  induction cs with
  | nil => intro rs k; rfl
  | cons cut cs ih =>
    intro rs k
    obtain ⟨rest, om⟩ := cut
    cases om with
    | none => exact ih rs _
    | some m => exact (ih rs.tail _).trans (kind_calls _ _)

/-- Lines that parse to nothing change nothing but the buffer. -/
theorem rounds_nothing (cs : List (Str × Option Message)) : ∀ (rs : List (List AppCall))
    (k : Client), cs.filterMap Prod.snd = [] → (k.rounds cs rs).myState = k.myState := by
  induction cs with
  | nil => intro rs k _; rfl
  | cons cut cs ih =>
    intro rs k hnil
    obtain ⟨rest, om⟩ := cut
    cases om with
    | none => exact ih rs _ hnil
    | some m => exact absurd hnil (List.cons_ne_nil _ _)

/-- Where the loop leaves the client is up to the reaction to the last message. -/
theorem rounds_last (cs : List (Str × Option Message)) : ∀ (rs : List (List AppCall))
    (k : Client), cs.filterMap Prod.snd ≠ [] →
    reactionCloses (rs.getD ((cs.filterMap Prod.snd).length - 1) []) = false →
    (k.rounds cs rs).myState = .received ∨ (k.rounds cs rs).myState = .sending := by
  induction cs with
  | nil => intro rs k hne _; exact absurd rfl hne
  | cons cut cs ih =>
    intro rs k hne hlast
    obtain ⟨rest, om⟩ := cut
    cases om with
    | none => exact ih rs _ hne hlast
    | some m =>
      rw [List.filterMap_cons_some (f := Prod.snd) (a := (rest, some m)) rfl, List.length_cons,
        Nat.add_sub_cancel] at hlast
      by_cases hmore : cs.filterMap Prod.snd = []
      · have hhead : reactionCloses (rs.headD []) = false := by
          rw [hmore] at hlast
          cases rs <;> exact hlast
        have hstate := calls_not_closing _ (k := (k.setReceiveBuffer rest).handOver m) hhead
          (Or.inl rfl)
        rw [← rounds_nothing cs rs.tail _ hmore] at hstate
        exact hstate
      · apply ih rs.tail _ hmore
        have hpos := Nat.succ_pred_eq_of_pos (List.length_pos_iff.mpr hmore)
        rw [← hpos] at hlast
        cases rs <;> exact hlast

/-- The script, as a callback finds it. -/
def World.withScript (reactions : List (List AppCall)) (gossip : List (List (Message × Int)))
    (w : World Script) : World Script :=
  { w with app := { w.app with reactions := reactions, gossip := gossip } }

theorem clients_step_callback (uv : Uv) (c : ClientId) (w : World Script) (cb : Callback)
    (reactions : List (List AppCall)) (gossip : List (List (Message × Int))) :
    ((soloSystem uv c).step w (.callback cb reactions gossip)).clients =
      (callback uv c (w.withScript reactions gossip) cb).world.clients :=
  Outcome.clients_settle _

theorem attached_new (addr : Str) : (NetClientIn.new addr).Attached := fun _ => rfl

/-- An accepted connection starts out reading, if libuv lets it. -/
theorem clients_onNewConnection (uv : Uv) (w : World Script) : ∃ addr res,
    (onNewConnection uv 0 0 w).clients w.next = (NetClientIn.new addr).read res := by
  have hread : ∀ k : Client, k.Attached →
      (doRead uv w.next (w.create k)).1.clients w.next = k.read (readAnswer uv w.next k) := by
    intro k hk
    rw [doRead_eq uv (by rw [World.clients_create_next]; exact hk), World.clients_modify_self,
      World.clients_create_next]
  exact ⟨_, _, hread _ (attached_new _)⟩

/-! ## What a rule has to say -/

/-- Two clients that differ in nothing a connection is judged by: the kind, the state, the
    stream, libuv's view and the history. -/
structure Client.SameConn (k k' : Client) : Prop where
  kind : k'.kind = k.kind
  myState : k'.myState = k.myState
  myUvStream : k'.myUvStream = k.myUvStream
  tcp : k'.tcp = k.tcp
  acts : k'.acts = k.acts

/-- A property of a connection that its methods preserve. -/
structure SoloRule (J : Client → Prop) : Prop where
  attached : ∀ {k : Client}, J k → k.Attached
  same : ∀ {k k' : Client}, k.SameConn k' → J k → J k'
  shut : ∀ {k : Client}, k.myState ≠ .closed → J k → J k.shut
  send : ∀ {k : Client} (m : Message) (res : Int), J k → J (k.send m res)
  read : ∀ {k : Client} (res : Int), k.myState = .sending ∨ k.myState = .sent ∨
    k.myState = .receiving → J k → J (k.read res)

/-- `process()` has a case for the state the client is in. -/
def Client.Handled (k : Client) : Prop :=
  k.kind = .netClientIn ∨ k.myState = .connected ∨ k.myState = .sending ∨ k.myState = .sent ∨
    k.myState = .receiving ∨ k.myState = .received

namespace SoloRule

variable {J : Client → Prop} (hJ : SoloRule J)

include hJ

theorem calls (cs : List AppCall) : ∀ {k : Client}, k.myState ≠ .closed → J k →
    J (k.calls cs) := by
  induction cs with
  | nil => intro k _ h; exact h
  | cons a cs ih =>
    intro k hs h
    apply ih (Client.call_ne_closed hs a)
    cases a with
    | reply m res => exact hJ.send m res h
    | close => exact hJ.shut hs h
    | setCanonPeerAddr a =>
      have hsame : k.SameConn (k.call (.setCanonPeerAddr a)) := ⟨rfl, rfl, rfl, rfl, rfl⟩
      exact hJ.same hsame h

/-- Replies alone need no state to start from: `sendMessage` checks it. -/
theorem replies (ms : List (Message × Int)) : ∀ {k : Client}, J k →
    J (k.calls (ms.map fun s => .reply s.1 s.2)) := by
  induction ms with
  | nil => intro k h; exact h
  | cons s ms ih => intro k h; exact ih (hJ.send s.1 s.2 h)

variable {uv : Uv} {c : ClientId} {w : World Script}

theorem sendMessage (m : Message) (h : J (w.clients c)) :
    J ((sendMessage uv c m w).1.clients c) := by
  rw [sendMessage_eq uv (hJ.attached h), World.clients_modify_self]
  exact hJ.send m _ h

theorem close (hs : (w.clients c).myState ≠ .closed) (h : J (w.clients c)) :
    J ((close c w).1.clients c) := by
  rw [close_eq (hJ.attached h), World.clients_modify_self]
  exact hJ.shut hs h

theorem doRead (hs : (w.clients c).myState = .sending ∨ (w.clients c).myState = .sent ∨
    (w.clients c).myState = .receiving) (h : J (w.clients c)) :
    J ((doRead uv c w).1.clients c) := by
  rw [doRead_eq uv (hJ.attached h), World.clients_modify_self]
  exact hJ.read _ hs h

theorem sendOtherPeers (h : J (w.clients c)) : J ((Script.sendOtherPeers uv c w).clients c) := by
  have hcalls := clients_script_calls (w := { w with app := { w.app with
    gossip := w.app.gossip.tail } }) uv ((w.app.gossip.headD []).map fun s => .reply s.1 s.2)
    (hJ.attached h)
  unfold Script.sendOtherPeers
  rw [hcalls]
  exact hJ.replies _ h

theorem onTimer (uv : Uv) (h : J (w.clients c)) : J ((onTimer uv c w).clients c) :=
  hJ.sendOtherPeers (hJ.sendMessage _ h)

/-- A write to a field no rule looks at. -/
theorem field {f : Client → Client} (hf : ∀ k : Client, k.SameConn (f k))
    (h : J (w.clients c)) : J ((w.modify c f).clients c) := by
  rw [World.clients_modify_self]
  exact hJ.same (hf _) h

theorem process_netClientOut (hh : (w.clients c).Handled ∨
      ∀ k, J k → J (k.log (.assertFailed .unhandledState)))
    (hk : (w.clients c).kind ≠ .netClientIn) (h : J (w.clients c)) :
    J ((NetClientOut.process uv c w).clients c) := by
  unfold NetClientOut.process
  dsimp only
  cases hs : (w.clients c).myState with
  | connected =>
    exact hJ.sendMessage _ (hJ.field (f := fun k => { k with mySendCounter := 0 })
      (fun _ => ⟨rfl, rfl, rfl, rfl, rfl⟩) h)
  | sending =>
    refine hJ.doRead (Or.inl ?_) (hJ.field (f := fun k =>
      { k with mySendCounter := k.mySendCounter + 1 }) (fun _ => ⟨rfl, rfl, rfl, rfl, rfl⟩) h)
    rw [World.clients_modify_self]
    exact hs
  | sent => exact hJ.doRead (Or.inr (Or.inl hs)) h
  | receiving => exact hJ.doRead (Or.inr (Or.inr hs)) h
  | received =>
    dsimp only
    split
    · exact hJ.close (by rw [hs]; decide) h
    · split
      · exact hJ.sendMessage _ h
      · exact h
  | _ =>
    dsimp only
    rw [World.clients_modify_self]
    rcases hh with hh | hun
    · exact absurd hh (by simp [Client.Handled, hk, hs])
    · exact hun _ h

theorem process_peerClientOut (hh : (w.clients c).Handled ∨
      ∀ k, J k → J (k.log (.assertFailed .unhandledState)))
    (hk : (w.clients c).kind ≠ .netClientIn) (h : J (w.clients c)) :
    J ((PeerClientOut.process uv c w).clients c) := by
  unfold PeerClientOut.process
  dsimp only
  cases hs : (w.clients c).myState with
  | connected =>
    have htimer := hJ.onTimer uv (hJ.field (f := fun k => { k with myTimer := true })
      (fun _ => ⟨rfl, rfl, rfl, rfl, rfl⟩) h)
    exact hJ.sendOtherPeers (hJ.sendMessage _
      (hJ.field (f := fun k => { k with timerActive := true, peerSendCounter := 0 })
        (fun _ => ⟨rfl, rfl, rfl, rfl, rfl⟩) htimer))
  | sending =>
    refine hJ.doRead (Or.inl ?_) (hJ.field (f := fun k =>
      { k with peerSendCounter := k.peerSendCounter + 1 }) (fun _ => ⟨rfl, rfl, rfl, rfl, rfl⟩) h)
    rw [World.clients_modify_self]
    exact hs
  | sent => exact hJ.doRead (Or.inr (Or.inl hs)) h
  | receiving => exact hJ.doRead (Or.inr (Or.inr hs)) h
  | received => exact h
  | _ =>
    dsimp only
    rw [World.clients_modify_self]
    rcases hh with hh | hun
    · exact absurd hh (by simp [Client.Handled, hk, hs])
    · exact hun _ h

/-- **`process()`**, in a state it handles, or under a rule that does not mind. -/
theorem process (hh : (w.clients c).Handled ∨
      ∀ k, J k → J (k.log (.assertFailed .unhandledState)))
    (h : J (w.clients c)) : J ((process uv c w).clients c) := by
  unfold TcpUv.process
  cases hk : (w.clients c).kind with
  | netClientIn => exact h
  | netClientOut => exact hJ.process_netClientOut hh (by rw [hk]; decide) h
  | peerClientOut => exact hJ.process_peerClientOut hh (by rw [hk]; decide) h

/-- **`process()` of a connection just established**: every branch of it sends first, so a
    weaker property is enough to start from. -/
theorem process_connected {I : Client → Prop} (hattached : ∀ {k}, I k → k.Attached)
    (hsame : ∀ {k k' : Client}, k.SameConn k' → I k → I k')
    (hsend : ∀ {k : Client} (m : Message) (res : Int), k.IsOpen → I k → J (k.send m res))
    (hs : (w.clients c).myState = .connected) (hk : (w.clients c).kind ≠ .netClientIn)
    (h : I (w.clients c)) : J ((TcpUv.process uv c w).clients c) := by
  have hfirst : ∀ (f : Client → Client) (m : Message), (∀ k : Client, k.SameConn (f k)) →
      J ((TcpUv.sendMessage uv c m (w.modify c f)).1.clients c) := by
    intro f m hf
    have hI : I ((w.modify c f).clients c) := by
      rw [World.clients_modify_self]
      exact hsame (hf _) h
    rw [sendMessage_eq uv (hattached hI), World.clients_modify_self]
    refine hsend m _ ?_ hI
    rw [World.clients_modify_self]
    exact ⟨by rw [(hf _).myState, hs]; decide, by rw [(hf _).myState, hs]; decide⟩
  unfold TcpUv.process
  cases hkind : (w.clients c).kind with
  | netClientIn => exact absurd hkind hk
  | netClientOut =>
    unfold NetClientOut.process
    dsimp only
    rw [hs]
    exact hfirst _ _ fun _ => ⟨rfl, rfl, rfl, rfl, rfl⟩
  | peerClientOut =>
    unfold PeerClientOut.process
    dsimp only
    rw [hs]
    have htimer : J ((TcpUv.onTimer uv c (w.modify c fun k => { k with myTimer := true })).clients
        c) := hJ.sendOtherPeers (hfirst _ _ fun _ => ⟨rfl, rfl, rfl, rfl, rfl⟩)
    exact hJ.sendOtherPeers (hJ.sendMessage _
      (hJ.field (f := fun k => { k with timerActive := true, peerSendCounter := 0 })
        (fun _ => ⟨rfl, rfl, rfl, rfl, rfl⟩) htimer))

end SoloRule

end TcpUv
