import TcpUv.Proof.Kept
import TcpUv.Proof.Wire

/-!
# No spurious close

A node that is never told of an error should never close a connection. It does: `doRead`
takes `UV_EALREADY` for a failure, and `process()` of an outgoing connection calls it again
after every write that completes and every read that leaves the state at `Receiving` or
`Sending`; and `onRead` takes an empty read for the end of the stream. `never_closed` says
that nothing else closes a connection: in a run in which these three things do not happen
to it (`ReadsOnce`), it is never closed. `closed_spuriously` is the shortest run of a
connection between two nodes in which one of them does.
-/

set_option autoImplicit false

namespace TcpUv

open Lib NodeApp

/-! ## The directions of the entries -/

/-- The incoming entries are accepted connections. -/
def InwardIn (w : NodeWorld) : Prop :=
  ∀ p ∈ inPeers w, ∀ d, p.myClient = some d → d < w.next ∧ (w.clients d).kind = .netClientIn

/-- … and a node makes no plain `NetClientOut`. -/
structure PeerKinds (w : NodeWorld) : Prop where
  inward : InwardIn w
  kind : ∀ d < w.next, (w.clients d).kind ≠ .netClientOut

namespace PeerKinds

variable {w w' : NodeWorld}

theorem of_sublist (h : PeerKinds w) (hnext : w'.next = w.next)
    (hpeers : w'.app.myPeers.Sublist w.app.myPeers)
    (hkind : ∀ d, (w'.clients d).kind = (w.clients d).kind) : PeerKinds w' where
  inward p hp d hd := by
    rw [hnext, hkind]
    exact h.inward p ((hpeers.filter _).subset hp) d hd
  kind d hd := by
    rw [hkind]
    exact h.kind d (hnext ▸ hd)

theorem modify (h : PeerKinds w) (c : ClientId) {f : Client → Client}
    (hf : ∀ k, (f k).kind = k.kind) : PeerKinds (w.modify c f) := by
  refine h.of_sublist rfl (List.Sublist.refl _) fun d => ?_
  rw [World.clients_modify]
  split
  · exact hf _
  · rfl

theorem addOutPeerCandidate (h : PeerKinds w) (host : Str) (port : Int32) (toTry : Int) :
    PeerKinds { w with app := w.app.addOutPeerCandidate host port toTry } := by
  refine h.of_sublist rfl ?_ fun _ => rfl
  unfold NodeApp.addOutPeerCandidate
  dsimp only
  split <;> exact List.Sublist.refl _

theorem tryCandidate (uv : Uv) (h : PeerKinds w) (key : Str) :
    PeerKinds (tryCandidate uv w key) where
  inward p hp d hd := by
    rw [Served.inPeers_tryCandidate] at hp
    obtain ⟨hlt, hkind⟩ := h.inward p hp d hd
    rw [clients_tryCandidate uv hlt]
    exact ⟨Nat.lt_of_lt_of_le hlt (next_tryCandidate uv w key), hkind⟩
  kind d hd := by
    by_cases hold : d < w.next
    · rw [clients_tryCandidate uv hold]
      exact h.kind d hold
    · obtain ⟨i, w', hnew, hclient⟩ := tryCandidate_new uv hold hd
      rw [hclient, (quiet_connect uv d w').kind, hnew]
      exact fun h => nomatch h

theorem accepted (h : PeerKinds w) (addr : Str) :
    PeerKinds (inConnectionReceived w.next (w.create (NetClientIn.new addr))) where
  inward p hp d hd := by
    have hmem : p ∈ inPeers w ∨ p = ⟨some w.next, false⟩ := by
      unfold inPeers inConnectionReceived at hp
      rw [List.filter_append] at hp
      rcases List.mem_append.mp hp with hp | hp
      · exact Or.inl hp
      · exact Or.inr (List.mem_singleton.mp (List.mem_of_mem_filter hp))
    rcases hmem with hmem | rfl
    · obtain ⟨hlt, hkind⟩ := h.inward p hmem d hd
      refine ⟨Nat.lt_succ_of_lt hlt, ?_⟩
      exact (congrArg Client.kind (World.clients_create_ne w _ (Nat.ne_of_lt hlt))).trans hkind
    · obtain rfl : w.next = d := Option.some.inj hd
      exact ⟨Nat.lt_succ_self _, congrArg Client.kind (World.clients_create_next w _)⟩
  kind d hd := by
    rcases Nat.lt_succ_iff_lt_or_eq.mp hd with hlt | rfl
    · exact fun hk => h.kind d hlt ((congrArg Client.kind
        (World.clients_create_ne w _ (Nat.ne_of_lt hlt))).symm.trans hk)
    · intro hk
      have hin := (congrArg Client.kind (World.clients_create_next w (NetClientIn.new addr))).symm
      exact absurd (hin.trans hk) (by simp [NetClientIn.new, Client.setState, Client.setUvStream])

end PeerKinds

/-- **No event turns an entry around.** -/
theorem nodeInvariant_peerKinds (uv : Uv) :
    NodeInvariant uv (fun _ => True) (fun w => PeerKinds w) where
  quiet _ hf h := h.modify _ fun k => (hf k).kind
  connectionClosed _ h := by
    rename_i w c _
    obtain ⟨hq, hnext, -, happ⟩ := connectionClosed_spec c w
    refine h.of_sublist hnext ?_ fun d => (hq d).kind
    rw [happ]
    exact List.filter_sublist
  greets _ _ h := h.modify _ fun _ => rfl
  handshakeResponse _ h := h.modify _ fun _ => rfl
  pingResponse _ _ h := h.modify _ fun _ => rfl
  otherPeer _ _ _ h := h.modify _ fun _ => rfl
  canonical _ _ _ _ _ h := h.modify _ fun _ => rfl
  canonicalCandidate _ _ _ _ h := h.addOutPeerCandidate _ _ _
  candidate _ h := h.addOutPeerCandidate _ _ _
  tryCandidate _ h := h.tryCandidate uv _
  connected _ h _ := h.modify _ fun _ => rfl
  buffer _ _ h := h.modify _ fun _ => rfl
  handed _ _ h := h.modify _ fun _ => rfl
  accepted _ h := h.accepted _
  named _ _ h := h.of_sublist rfl (List.Sublist.refl _) fun _ => rfl
  net _ h := h.of_sublist rfl (List.Sublist.refl _) fun _ => rfl
  terminated _ h := h.of_sublist rfl (List.Sublist.refl _) fun _ => rfl
  started {w} _ _ h := startCandidates_preserve (I := fun a => PeerKinds { w with app := a })
    (fun _ h => h.addOutPeerCandidate _ _ _) (fun _ _ _ h => h.addOutPeerCandidate _ _ _) h

theorem peerKinds_init : PeerKinds NodeWorld.init where
  inward _ h := nomatch h
  kind _ h := nomatch h

theorem peerKinds_reachable {uv : Uv} {w : NodeWorld} (h : NodeReachable uv w) : PeerKinds w :=
  System.reachable_invariant h peerKinds_init fun _ e hw ha =>
    (nodeInvariant_peerKinds uv).step ha (by cases e <;> trivial) hw

/-! ## The receive loop -/

/-- Who is connected to the node is read off the incoming entries. -/
theorem isPeerConnected_inward {w w' : NodeWorld} {a : Str} (hin : inPeers w' = inPeers w)
    (hmatches : ∀ p ∈ inPeers w, PeerInfo.matches w' a p = PeerInfo.matches w a p) :
    NodeApp.isPeerConnected w' a false = NodeApp.isPeerConnected w a false := by
  have hentry : ∀ v : NodeWorld, NodeApp.isPeerConnected v a false =
      (inPeers v).any (PeerInfo.matches v a) := by
    intro v
    rw [Bool.eq_iff_iff, isPeerConnected_iff]
    simp [inPeers]
  rw [hentry, hentry, hin, Bool.eq_iff_iff, List.any_eq_true, List.any_eq_true]
  exact exists_congr fun p => and_congr_right fun hp => by rw [hmatches p hp]

/-- Serving an outgoing connection does not change who is connected to the node. -/
theorem Served.isPeerConnected {c : ClientId} {w w' : NodeWorld} (h : Served c w w')
    (hk : (w.clients c).kind ≠ .netClientIn) (hin : InwardIn w) (a : Str) :
    NodeApp.isPeerConnected w' a false = NodeApp.isPeerConnected w a false := by
  refine isPeerConnected_inward h.inward fun p hp => PeerInfo.matches_congr (fun d hd => ?_) a
  obtain ⟨hlt, hkind⟩ := hin p hp d hd
  refine h.others d ?_ hlt
  rintro rfl
  exact hk hkind

theorem Served.answers {c : ClientId} {w w' : NodeWorld} (h : Served c w w')
    (hk : (w.clients c).kind ≠ .netClientIn) (hin : InwardIn w) (m : Message) :
    TcpUv.answers w' c m = TcpUv.answers w c m := by
  cases m with
  | handshake myVersion yourAddr myAddr =>
    unfold TcpUv.answers
    rw [h.myPeerAddr, h.isPeerConnected hk hin]
  | _ => rfl

theorem Served.throwsOn {c : ClientId} {w w' : NodeWorld} (h : Served c w w')
    (hk : (w.clients c).kind ≠ .netClientIn) (hin : InwardIn w) (m : Message) :
    TcpUv.throwsOn w' c m = TcpUv.throwsOn w c m := by
  cases m with
  | handshake myVersion yourAddr myAddr =>
    unfold TcpUv.throwsOn
    rw [h.myPeerAddr, h.isPeerConnected hk hin]
  | _ => rfl

theorem Served.inwardIn {c : ClientId} {w w' : NodeWorld} (h : Served c w w')
    (hk : (w.clients c).kind ≠ .netClientIn) (hin : InwardIn w) : InwardIn w' := by
  intro p hp d hd
  rw [h.inward] at hp
  obtain ⟨hlt, hkind⟩ := hin p hp d hd
  have hne : d ≠ c := by
    rintro rfl
    exact hk hkind
  rw [h.others d hne hlt]
  exact ⟨Nat.lt_of_lt_of_le hlt h.next, hkind⟩

/-- What a read that ends without an exception says about an outgoing connection: no
    message threw, and the state is the one the last message left. -/
structure LoopEnd (c : ClientId) (w w' : NodeWorld) (cut : List (Str × Option Message) × Bool) :
    Prop where
  complete : cut.2 = false
  handled : ∀ m ∈ cut.1.filterMap Prod.snd, throwsOn w c m = false
  nothing : cut.1.filterMap Prod.snd = [] → (w'.clients c).myState = (w.clients c).myState
  last : ∀ m, (cut.1.filterMap Prod.snd).getLast? = some m → answers w c m = false →
    (w'.clients c).myState = .received

namespace LoopEnd

variable {c : ClientId} {w w₁ w' : NodeWorld} {cut : List (Str × Option Message) × Bool}

/-- No line. -/
theorem stop : LoopEnd c w w ([], false) where
  complete := rfl
  handled m hm := absurd hm (by simp)
  nothing _ := rfl
  last m hm := absurd hm (by simp)

/-- A line that parses to nothing. -/
theorem skip (h : Served c w w₁) (hk : (w.clients c).kind ≠ .netClientIn) (hin : InwardIn w)
    (hstate : (w₁.clients c).myState = (w.clients c).myState) (rest : Str)
    (hend : LoopEnd c w₁ w' cut) : LoopEnd c w w' ((rest, none) :: cut.1, cut.2) where
  complete := hend.complete
  handled m hm := (h.throwsOn hk hin m).symm.trans (hend.handled m hm)
  nothing hnil := (hend.nothing hnil).trans hstate
  last m hm hno := hend.last m hm ((h.answers hk hin m).trans hno)

/-- A line that is a message. -/
theorem serve (h : Served c w w₁) (hk : (w.clients c).kind ≠ .netClientIn) (hin : InwardIn w)
    {m : Message} (hm : throwsOn w c m = false)
    (hstate : answers w c m = false → (w₁.clients c).myState = .received) (rest : Str)
    (hend : LoopEnd c w₁ w' cut) : LoopEnd c w w' ((rest, some m) :: cut.1, cut.2) where
  complete := hend.complete
  handled m' hm' := by
    rcases List.mem_cons.mp hm' with rfl | hm'
    · exact hm
    · exact (h.throwsOn hk hin m').symm.trans (hend.handled m' hm')
  nothing hnil := absurd hnil (by simp)
  last m' hm' hno := by
    rw [List.filterMap_cons_some (f := Prod.snd) (a := (rest, some m)) rfl] at hm'
    by_cases hmore : cut.1.filterMap Prod.snd = []
    · -- it was the last one
      rw [hmore, List.getLast?_singleton] at hm'
      cases hm'
      exact (hend.nothing hmore).trans (hstate hno)
    · rw [List.getLast?_cons_of_ne_nil hmore] at hm'
      exact hend.last m' hm' ((h.answers hk hin m').trans hno)

end LoopEnd

/-- A line cut from the buffer. -/
theorem Served.cut {c : ClientId} {w : NodeWorld} (h : Kept (w.clients c)) (rest : Str) :
    Served c w (w.modify c (Client.setReceiveBuffer rest)) :=
  .modify rfl rfl rfl ⟨h.acts, h.isOpen, h.live⟩

/-- A line cut from the buffer, and the message it stands for served. -/
theorem served_given {uv : Uv} {c : ClientId} {w : NodeWorld} (huv : uv.Accepts c)
    (hc : c < w.next) (h : Kept (w.clients c)) {line : Str} {m : Message}
    (hline : parseLine line = .ok (some m)) (hv : m.SpeaksV01) (rest : Str) {o : Outcome NodeApp}
    (ho : App.messageReceived uv c m ((w.modify c (Client.setReceiveBuffer rest)).modify c
      (Client.handOver m)) = o) :
    Served c w o.world ∧ (o.world.clients c).myReceiveBuffer = rest ∧
      ((w.clients c).kind ≠ .netClientIn → InwardIn w →
        (answers w c m = false → (o.world.clients c).myState = .received) ∧
        o.threw = throwsOn w c m) := by
  have hbuffer := Served.cut h rest
  have hgot : Served c (w.modify c (Client.setReceiveBuffer rest))
      ((w.modify c (Client.setReceiveBuffer rest)).modify c (Client.handOver m)) :=
    .modify rfl rfl rfl ((hbuffer.kept.setState (s := .received) (by simp)).log rfl)
  have hboth := hbuffer.trans hgot
  have hreceived : (((w.modify c (Client.setReceiveBuffer rest)).modify c
      (Client.handOver m)).clients c).myState = .received := by
    rw [World.clients_modify_self]
    rfl
  have hrest : (((w.modify c (Client.setReceiveBuffer rest)).modify c
      (Client.handOver m)).clients c).myReceiveBuffer = rest := by
    rw [World.clients_modify_self, World.clients_modify_self]
    rfl
  generalize (w.modify c (Client.setReceiveBuffer rest)).modify c (Client.handOver m) = w₁
    at hboth hreceived hrest hgot ho
  have hc₁ := Nat.lt_of_lt_of_le hc hboth.next
  obtain ⟨hserved, hquiet, hthrew⟩ := served_messageReceived huv hc₁ hv hboth.kept
  have hinbox := KeepsInbox.messageReceived (c := c) uv (wf_of_parseLine hline)
    (show HasInbox c _ w₁ from ⟨hc₁, rfl⟩)
  change NodeApp.messageReceived uv c m w₁ = o at ho
  change HasInbox c _ (NodeApp.messageReceived uv c m w₁).world at hinbox
  rw [ho] at hserved hquiet hthrew hinbox
  refine ⟨hboth.trans hserved, (congrArg Prod.fst hinbox.2).trans hrest, fun hk hin =>
    ⟨fun hno => ?_, ?_⟩⟩
  · exact (hquiet ((hboth.answers hk hin m).trans hno)).trans hreceived
  · exact hthrew.trans (hboth.throwsOn hk hin m)

/-- **The receive loop serves the connection.** Induction on the fuel, as in `cuts`. -/
theorem served_receiveLoop {uv : Uv} {c : ClientId} (huv : uv.Accepts c) : ∀ (fuel : Nat)
    {w : NodeWorld}, c < w.next → Kept (w.clients c) →
    (∀ m ∈ (cuts fuel (w.clients c).myReceiveBuffer).1.filterMap Prod.snd, m.SpeaksV01) →
    Served c w (receiveLoop uv c fuel w).world ∧
      ((w.clients c).kind ≠ .netClientIn → InwardIn w → ∀ w',
        receiveLoop uv c fuel w = .returns w' →
        LoopEnd c w w' (cuts fuel (w.clients c).myReceiveBuffer)) := by
  intro fuel
  induction fuel with
  | zero =>
    intro w _ h _
    refine ⟨Served.refl h, fun _ _ w' hw' => ?_⟩
    cases hw'
    exact .stop
  | succ fuel ih =>
    intro w hc h hv
    rw [cuts] at hv ⊢
    rw [receiveLoop_succ]
    have hturn := turnTaken_loopTurn uv c w
    generalize loopTurn uv c w = t at hturn ⊢
    cases hturn with
    | broken hcut =>
      refine ⟨Served.refl h, fun _ _ w' hw' => ?_⟩
      cases hw'
    | done hcut =>
      simp only [hcut]
      refine ⟨Served.refl h, fun _ _ w' hw' => ?_⟩
      cases hw'
      exact .stop
    | @malformed line rest e hcut hline =>
      refine ⟨Served.cut h rest, fun _ _ w' hw' => ?_⟩
      cases hw'
    | @skipped line rest hcut hline =>
      -- the line parses to nothing: the rest of the buffer decides
      simp only [hcut, hline] at hv ⊢
      have hbuffer := Served.cut h rest
      have hclient : (w.modify c (Client.setReceiveBuffer rest)).clients c =
          (w.clients c).setReceiveBuffer rest := World.clients_modify_self _ _ _
      obtain ⟨hserved, hend⟩ := ih (Nat.lt_of_lt_of_le hc hbuffer.next) hbuffer.kept
        (by rw [hclient]; exact hv)
      refine ⟨hbuffer.trans hserved, fun hk hin w' hw' => ?_⟩
      have hend := hend (by rw [hbuffer.kind]; exact hk) (hbuffer.inwardIn hk hin) w' hw'
      rw [hclient] at hend
      exact hend.skip hbuffer hk hin (by rw [hclient]; rfl) rest
    | @taken line rest m w₁ hcut hline hgot =>
      simp only [hcut, hline] at hv ⊢
      obtain ⟨hgiven, hrest, hquiet⟩ := served_given huv hc h hline (hv m (by simp)) rest hgot
      rw [Outcome.world_returns] at hgiven hrest hquiet
      obtain ⟨hserved, hend⟩ := ih (Nat.lt_of_lt_of_le hc hgiven.next) hgiven.kept
        (by rw [hrest]; exact fun m' hm' => hv m' (List.mem_cons_of_mem m hm'))
      refine ⟨hgiven.trans hserved, fun hk hin w' hw' => ?_⟩
      have hend := hend (by rw [hgiven.kind]; exact hk) (hgiven.inwardIn hk hin) w' hw'
      rw [hrest] at hend
      obtain ⟨hreceived, hthrew⟩ := hquiet hk hin
      exact hend.serve hgiven hk hin hthrew.symm hreceived rest
    | @refused line rest m e w₁ hcut hline hgot =>
      simp only [hcut, hline] at hv
      refine ⟨(served_given huv hc h hline (hv m (by simp)) rest hgot).1, fun _ _ w' hw' => ?_⟩
      cases hw'

/-! ## The callbacks of the connection -/

/-- The states in which `process()` of an outgoing connection calls `doRead`. -/
def State.Reads (s : State) : Prop := s = .sending ∨ s = .sent ∨ s = .receiving

section

variable {uv : Uv} {c : ClientId} {w : NodeWorld} (huv : uv.Accepts c)

include huv

/-- `doRead()` on a stream that is not read yet. -/
theorem kept_doRead (hread : (w.clients c).tcp.reading = false) (h : Kept (w.clients c)) :
    Kept ((doRead uv c w).1.clients c) := by
  have hres : readAnswer uv c (w.clients c) = 0 := by
    have htcp : (((w.clients c).assert .doRead ((w.clients c).myState = .accepted ||
        (w.clients c).myState = .sent || (w.clients c).myState = .sending ||
          (w.clients c).myState = .receiving)).setState .receiving).tcp = (w.clients c).tcp := by
      unfold Client.assert
      split <;> rfl
    unfold readAnswer
    rw [huv.readStart, htcp, if_neg (by rw [hread]; decide)]
  rw [doRead_eq uv h.attached, World.clients_modify_self, hres]
  exact h.read

theorem kept_sendMessage (m : Message) (h : Kept (w.clients c)) :
    Kept ((sendMessage uv c m w).1.clients c) := (Served.sendMessage huv m h).kept

theorem kept_sendOtherPeers (h : Kept (w.clients c)) :
    Kept ((sendOtherPeers uv c w).clients c) := (Served.sendOtherPeers huv h).kept

theorem kept_onTimer (h : Kept (w.clients c)) : Kept ((onTimer uv c w).clients c) :=
  kept_sendOtherPeers huv (kept_sendMessage huv _ h)

omit huv in
theorem kept_modify {f : Client → Client} (hf : ∀ k : Client, k.SameConn (f k))
    (h : Kept (w.clients c)) : Kept ((w.modify c f).clients c) := by
  rw [World.clients_modify_self]
  exact h.same (hf _)

/-- `process()`, when it does not ask for a second read. -/
theorem kept_process (hk : (w.clients c).kind ≠ .netClientOut)
    (hread : (w.clients c).kind = .peerClientOut → (w.clients c).tcp.reading = true →
      ¬ (w.clients c).myState.Reads)
    (h : Kept (w.clients c)) : Kept ((process uv c w).clients c) := by
  unfold TcpUv.process
  cases hkind : (w.clients c).kind with
  | netClientIn => exact h
  | netClientOut => exact absurd hkind hk
  | peerClientOut =>
    have hidle : (w.clients c).myState.Reads → (w.clients c).tcp.reading = false := fun hs =>
      Bool.eq_false_iff.mpr fun hr => hread hkind hr hs
    unfold PeerClientOut.process
    dsimp only
    cases hs : (w.clients c).myState with
    | connected =>
      have htimer := kept_modify (f := fun k => { k with myTimer := true })
        (fun _ => ⟨rfl, rfl, rfl, rfl, rfl⟩) h
      have hstarted := kept_modify
        (f := fun k => { k with timerActive := true, peerSendCounter := 0 })
        (fun _ => ⟨rfl, rfl, rfl, rfl, rfl⟩) (kept_onTimer huv htimer)
      exact kept_sendOtherPeers huv (kept_sendMessage huv _ hstarted)
    | sending =>
      refine kept_doRead huv ?_ (kept_modify
        (f := fun k => { k with peerSendCounter := k.peerSendCounter + 1 })
        (fun _ => ⟨rfl, rfl, rfl, rfl, rfl⟩) h)
      rw [World.clients_modify_self]
      exact hidle (by simp [State.Reads, hs])
    | sent => exact kept_doRead huv (hidle (by simp [State.Reads, hs])) h
    | receiving => exact kept_doRead huv (hidle (by simp [State.Reads, hs])) h
    | received => exact h
    | _ =>
      dsimp only
      rw [World.clients_modify_self]
      exact h.log rfl

theorem kept_onConnect (hk : (w.clients c).kind ≠ .netClientOut) (h : Kept (w.clients c)) :
    Kept ((onConnect uv c 0 w).clients c) := by
  rw [onConnect_eq]
  split
  · exact h
  · obtain ⟨canon, heq⟩ := (w.clients c).establish_eq uv c
    refine kept_process huv ?_ (fun _ _ hs => ?_) ?_
    · rw [World.clients_modify_self, heq]
      exact hk
    · rw [World.clients_modify_self, heq] at hs
      rcases hs with hs | hs | hs <;> cases hs
    · rw [World.clients_modify_self, heq]
      exact Kept.setState (by simp) (Kept.same (k := w.clients c) ⟨rfl, rfl, rfl, rfl, rfl⟩ h)

theorem kept_onWrite (hk : (w.clients c).kind ≠ .netClientOut)
    (hread : (w.clients c).kind = .peerClientOut → (w.clients c).tcp.reading = true →
      ¬ (w.clients c).myState.Reads)
    (h : Kept (w.clients c)) : Kept ((onWrite uv c 0 w).clients c) := by
  have hassert : ∀ b, Kept ((w.clients c).assert .onWrite b) ∧
      ((w.clients c).assert .onWrite b).kind = (w.clients c).kind ∧
      ((w.clients c).assert .onWrite b).tcp = (w.clients c).tcp ∧
      ((w.clients c).assert .onWrite b).myState = (w.clients c).myState := by
    intro b
    cases b with
    | true => exact ⟨h, rfl, rfl, rfl⟩
    | false => exact ⟨h.log rfl, rfl, rfl, rfl⟩
  unfold onWrite
  dsimp only
  rw [if_neg (by simp)]
  obtain ⟨hkept, hkind, htcp, hstate⟩ := hassert ((w.clients c).myState = .sending ||
    (w.clients c).myState = .receiving || (w.clients c).myState = .received)
  refine kept_process huv ?_ ?_ ?_
  · rw [World.clients_modify_self, hkind]
    exact hk
  · rw [World.clients_modify_self, hkind, htcp, hstate]
    exact hread
  · rw [World.clients_modify_self]
    exact hkept

end

/-- A read after which an outgoing connection does not ask for another one: an exception
    ended it, or it leaves the state at `Received`. -/
def LeavesReceived (c : ClientId) (w : NodeWorld) (buffer : Str) : Prop :=
  cutThrows buffer = false → (∀ m ∈ deliveries buffer, throwsOn w c m = false) →
    (deliveries buffer = [] → ¬ (w.clients c).myState.Reads) ∧
      ∀ m, (deliveries buffer).getLast? = some m → answers w c m = false

theorem kept_onRead {uv : Uv} {c : ClientId} {w : NodeWorld} (huv : uv.Accepts c)
    (hc : c < w.next) (hkinds : PeerKinds w) {nread : Int} (hpos : 0 < nread) (base : Str)
    (hv : ∀ m ∈ deliveries ((w.clients c).buffered nread base), m.SpeaksV01)
    (hleaves : (w.clients c).kind = .peerClientOut →
      LeavesReceived c w ((w.clients c).buffered nread base))
    (h : Kept (w.clients c)) : Kept ((onRead uv c nread (some base) w).world.clients c) := by
  generalize hbuffer : (w.clients c).buffered nread base = buffer at hv hleaves
  have hgot : Served c w (w.modify c fun k =>
      k.setReceiveBuffer (k.myReceiveBuffer ++ base.take nread.toNat)) :=
    .modify rfl rfl rfl ⟨h.acts, h.isOpen, h.live⟩
  have hbuffered : ((w.modify c fun k => k.setReceiveBuffer
      (k.myReceiveBuffer ++ base.take nread.toNat)).clients c).myReceiveBuffer = buffer := by
    rw [World.clients_modify_self]
    exact hbuffer
  have hstate : ((w.modify c fun k => k.setReceiveBuffer
      (k.myReceiveBuffer ++ base.take nread.toNat)).clients c).myState = (w.clients c).myState := by
    rw [World.clients_modify_self]
    rfl
  rw [onRead_data uv hpos]
  generalize (w.modify c fun k => k.setReceiveBuffer
    (k.myReceiveBuffer ++ base.take nread.toNat)) = w₁ at hgot hbuffered hstate ⊢
  unfold doProcessReceivedBuffer
  rw [hbuffered]
  obtain ⟨hserved, hend⟩ := served_receiveLoop huv buffer.length
    (Nat.lt_of_lt_of_le hc hgot.next) hgot.kept (by rw [hbuffered]; exact hv)
  have hall := hgot.trans hserved
  cases ho : receiveLoop uv c buffer.length w₁ with
  | throws e w' =>
    rw [ho] at hall
    exact hall.kept
  | returns w' =>
    rw [ho, Outcome.world_returns] at hall
    refine kept_process huv ?_ (fun hout _ => ?_) hall.kept
    · rw [hall.kind]
      exact hkinds.kind c hc
    · rw [hall.kind] at hout
      have hk : (w.clients c).kind ≠ .netClientIn := by
        rw [hout]
        decide
      have hend := hend (by rw [hgot.kind]; exact hk) (hgot.inwardIn hk hkinds.inward) w' ho
      rw [hbuffered] at hend
      obtain ⟨hnone, hlast⟩ := hleaves hout hend.complete fun m hm =>
        (hgot.throwsOn hk hkinds.inward m).symm.trans (hend.handled m hm)
      cases hm : (deliveries buffer).getLast? with
      | none =>
        have hnil := List.getLast?_eq_none_iff.mp hm
        rw [hend.nothing hnil, hstate]
        exact hnone hnil
      | some m =>
        have hreceived := hend.last m hm
          ((hgot.answers hk hkinds.inward m).trans (hlast m hm))
        rw [hreceived]
        rintro (hs | hs | hs) <;> cases hs

/-! ## Every run -/

/-- No callback of the connection reports an error or the end of the stream, and the
    handshakes that arrive on it are of the right version. -/
def Faultless (c : ClientId) (w : NodeWorld) : NodeEvent → Prop
  | .client d (.connected status) => d = c → status = 0
  | .client d (.wrote status) => d = c → status = 0
  | .client d (.read nread buf) => d = c → 0 ≤ nread ∧ ∀ base, buf = some base →
      ∀ m ∈ deliveries ((w.clients c).buffered nread base), m.SpeaksV01
  | _ => True

/-- No read of the connection is empty, and if it is an outgoing one that is being read,
    its writes complete and its reads end where `process()` does not ask for a read. -/
def ReadsOnce (c : ClientId) (w : NodeWorld) : NodeEvent → Prop
  | .client d (.read nread buf) => d = c → nread ≠ 0 ∧
      ((w.clients c).kind = .peerClientOut → ∀ base, buf = some base →
        LeavesReceived c w ((w.clients c).buffered nread base))
  | .client d (.wrote _) => d = c → (w.clients c).kind = .peerClientOut →
      (w.clients c).tcp.reading = true → ¬ (w.clients c).myState.Reads
  | _ => True

theorem kept_callback {uv : Uv} {c : ClientId} {w : NodeWorld} (huv : uv.Accepts c)
    (hc : c < w.next) (hkinds : PeerKinds w) (cb : Callback) (ha : cb.allowed (w.clients c))
    (hf : Faultless c w (.client c cb)) (hr : ReadsOnce c w (.client c cb))
    (h : Kept (w.clients c)) : Kept ((callback uv c w cb).world.clients c) := by
  have hk := hkinds.kind c hc
  cases cb with
  | connected status =>
    obtain rfl : status = 0 := hf rfl
    refine kept_onConnect huv ?_ ?_
    · rw [World.clients_modify_self]
      exact hk
    · rw [World.clients_modify_self]
      exact ⟨h.acts, h.isOpen, h.live⟩
  | read nread buf =>
    obtain ⟨hnonneg, hv⟩ := hf rfl
    obtain ⟨hne, hleaves⟩ := hr rfl
    have hpos : 0 < nread := by omega
    obtain ⟨base, rfl, -⟩ := ha.2.2 hpos
    exact kept_onRead huv hc hkinds hpos base (hv base rfl) (fun hout => hleaves hout base rfl) h
  | wrote status =>
    obtain rfl : status = 0 := hf rfl
    refine kept_onWrite huv ?_ (fun hout hread => ?_) ?_
    · rw [World.clients_modify_self]
      exact hk
    · rw [World.clients_modify_self] at hout hread ⊢
      exact hr rfl hout hread
    · rw [World.clients_modify_self]
      exact ⟨h.acts, h.isOpen, h.live⟩
  | closed =>
    -- the handle of a connection that is kept is not closing
    have hclosing := ha.1
    rw [h.live] at hclosing
    cases hclosing
  | timer => exact kept_onTimer huv h

/-- One event, whichever connection it is about. -/
theorem keptAt_step {uv : Uv} {c : ClientId} (huv : uv.Accepts c) {w : NodeWorld} {e : NodeEvent}
    (hkinds : PeerKinds w) (h : KeptAt c w) (ha : (nodeSystem uv).allowed w e)
    (hf : Faultless c w e) (hr : ReadsOnce c w e) : KeptAt c (nodeStep uv w e) := by
  by_cases hcb : ∃ cb, e = .client c cb
  · obtain ⟨cb, rfl⟩ := hcb
    obtain ⟨hc, hcb⟩ := ha.2
    intro _
    show Kept ((callback uv c w cb).settle.clients c)
    rw [Outcome.clients_settle]
    exact kept_callback huv hc hkinds cb hcb hf hr (h hc)
  · exact (bystander_kept huv).elsewhere.step (fun cb he => hcb ⟨cb, he⟩) h

/-- **No spurious close.** In a run without errors in which no read of the connection is
    empty and no read of it is started twice, it is never closed by this node. -/
theorem never_closed {uv : Uv} {c : ClientId} (huv : uv.Accepts c) {es : List NodeEvent}
    (hv : (nodeSystem uv).Valid NodeWorld.init es)
    (hf : (nodeSystem uv).Along (Faultless c) NodeWorld.init es)
    (hr : (nodeSystem uv).Along (ReadsOnce c) NodeWorld.init es)
    (hc : c < ((nodeSystem uv).run NodeWorld.init es).next) :
    NeverClosed (((nodeSystem uv).run NodeWorld.init es).clients c) := by
  have hinv := System.run_invariant_along (M := nodeSystem uv)
    (I := fun w => PeerKinds w ∧ KeptAt c w) (fun w e h ha hp =>
      ⟨(nodeInvariant_peerKinds uv).step ha (by cases e <;> trivial) h.1,
        keptAt_step huv h.1 h.2 ha hp.1 hp.2⟩)
    (s := NodeWorld.init) ⟨peerKinds_init, fun h => nomatch h⟩ hv (hf.and hr)
  exact (hinv.2 hc).acts

theorem accepts_cooperative (c : ClientId) : Uv.cooperative.Accepts c :=
  ⟨fun _ => rfl, fun _ => rfl⟩

/-- An outgoing connection that reads the answer to its handshake before a second write
    completes. -/
theorem never_closed_answered :
    NeverClosed (((nodeSystem Uv.cooperative).run NodeWorld.init
      [.start { listenPort := 5000, listenPortRange := 5 }, .client 0 (.connected 0),
        .client 0 (.wrote 0), .client 0 (.read 22 (some "HANDSHRESP V01 :1 b:2\n".toList)),
        .client 0 (.wrote 0)]).clients 0) := by
  have hread : deliveries "HANDSHRESP V01 :1 b:2\n".toList =
      [.handshakeResponse textV01 [':', '1'] ['b', ':', '2']] := by decide
  refine never_closed (accepts_cooperative 0) (by decide) ?_ ?_ (by decide)
  · refine ⟨trivial, fun _ => rfl, fun _ => rfl, fun _ => ⟨by decide, ?_⟩, fun _ => rfl, trivial⟩
    rintro base ⟨⟩ m hm
    change m ∈ deliveries "HANDSHRESP V01 :1 b:2\n".toList at hm
    rw [hread, List.mem_singleton] at hm
    rw [hm]
    trivial
  · refine ⟨trivial, trivial, fun _ _ hr => ?_, fun _ => ⟨by decide, fun _ => ?_⟩, ?_, trivial⟩
    · exact absurd hr (by decide)
    · rintro base ⟨⟩ - -
      change (deliveries "HANDSHRESP V01 :1 b:2\n".toList = [] → _) ∧
        ∀ m, (deliveries "HANDSHRESP V01 :1 b:2\n".toList).getLast? = some m → _
      rw [hread]
      refine ⟨(fun h => nomatch h), fun m hm => ?_⟩
      cases hm
      rfl
    · rintro - - - (hs | hs | hs)
      · exact absurd hs (by decide)
      · exact absurd hs (by decide)
      · exact absurd hs (by decide)

/-- The second of the writes of an outgoing connection completes, and the node closes it. -/
theorem closed_spuriously :
    (nodeSystem Uv.cooperative).Valid NodeWorld.init
      [.start { listenPort := 5000, listenPortRange := 5 }, .client 0 (.connected 0),
        .client 0 (.wrote 0), .client 0 (.wrote 0)] ∧
    (nodeSystem Uv.cooperative).Along (Faultless 0) NodeWorld.init
      [.start { listenPort := 5000, listenPortRange := 5 }, .client 0 (.connected 0),
        .client 0 (.wrote 0), .client 0 (.wrote 0)] ∧
    ¬ NeverClosed (((nodeSystem Uv.cooperative).run NodeWorld.init
      [.start { listenPort := 5000, listenPortRange := 5 }, .client 0 (.connected 0),
        .client 0 (.wrote 0), .client 0 (.wrote 0)]).clients 0) := by
  refine ⟨by decide, ?_, fun h => ?_⟩
  · exact ⟨trivial, fun _ => rfl, fun _ => rfl, fun _ => rfl, trivial⟩
  · exact absurd (h .closeCall (by decide)) (by decide)

end TcpUv
