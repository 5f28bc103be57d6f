import TcpUv.Proof.Interop
import TcpUv.Proof.Networks

/-!
# Requests and answers

The server serves connections from the moment its loop thread runs, a little before it knows its
own name. Whatever it is sent, it answers each connection's requests in turn: the first of them
without a name, the others with it (`server_replies_inTurn`). In a network that is what comes
back: a client or a node that is connected to a server hears the answers to its own requests, in
the order it made them (`network_replies`), and a server never meets a message of the client
program that it does not handle (`network_handled`).
-/

set_option autoImplicit false

namespace TcpUv

open Lib (System)

/-! ## One connection of a server -/

namespace Client

/-- The requests were answered in turn, the first of them anonymously; and nothing but a request
    was objected to. -/
structure Replied (name : Str) (k : Client) : Prop where
  answered : ∃ early late, k.delivered = early ++ late ∧
    k.sent = early.filterMap (ServerApp.answer [] k.myPeerAddr) ++
      late.filterMap (ServerApp.answer name k.myPeerAddr) ∧ (name = [] → late = [])
  objects : .assertFailed .unhandledMessage ∈ k.acts → ∃ m ∈ k.delivered, ¬ m.IsRequest

/-- A move that neither hands over, answers nor objects. -/
structure Silent (k k' : Client) : Prop where
  myPeerAddr : k'.myPeerAddr = k.myPeerAddr
  delivered : k'.delivered = k.delivered
  sent : k'.sent = k.sent
  avoids : k.Avoids (.assertFailed .unhandledMessage) k'

theorem avoids_shut (k : Client) : k.Avoids (.assertFailed .unhandledMessage) k.shut := by
  unfold shut
  split
  · exact ⟨[.closeCall, .state .closing], by simp [setState, log], by simp⟩
  · rename_i hd _
    exact ⟨[.closeCall, .state .closing, .uvClose hd], by simp [setState, log, uvClose], by simp⟩

theorem avoids_read (res : Int) (k : Client) :
    k.Avoids (.assertFailed .unhandledMessage) (k.read res) := by
  have hstarted : ∀ b, k.Avoids (.assertFailed .unhandledMessage)
      (((k.assert .doRead b).setState .receiving).uvReadStart res) := by
    intro b
    have hread : (k.assert .doRead b).Avoids (.assertFailed .unhandledMessage)
        (((k.assert .doRead b).setState .receiving).uvReadStart res) :=
      ⟨[.state .receiving, .uvReadStart (k.assert .doRead b).myUvStream],
        by simp [setState, uvReadStart], by simp⟩
    cases b with
    | false =>
      have hlogged : k.Avoids (.assertFailed .unhandledMessage) (k.assert .doRead false) :=
        Avoids.not_log.mpr (by simp)
      exact hlogged.trans hread
    | true => exact hread
  unfold read
  dsimp only
  split
  · exact (hstarted _).trans (avoids_shut _)
  · exact hstarted _

/-- Only a message is objected to. -/
theorem avoids_serve_idle (uv : Uv) (c : ClientId) (name : Str) {cb : Callback} (k : Client)
    (hno : ∀ nread base, cb = .read nread (some base) → ¬ 0 < nread) :
    k.Avoids (.assertFailed .unhandledMessage) (k.serve uv c name cb) := by
  cases cb with
  | read nread buf =>
    unfold serve
    dsimp only
    split
    · exact avoids_shut k
    · rename_i hpos
      cases buf with
      | none => exact .refl _ _
      | some base => exact absurd (Int.not_le.mp hpos) (hno nread base rfl)
  | wrote status =>
    have hassert : k.Avoids (.assertFailed .unhandledMessage)
        ({ k with tcp := { k.tcp with writes := k.tcp.writes - 1 } } : Client).assertWrite := by
      unfold assertWrite assert
      split
      · exact .refl _ _
      · exact ⟨[.assertFailed .onWrite], rfl, by simp⟩
    unfold serve
    dsimp only
    split
    · exact hassert.trans (avoids_shut _)
    · exact hassert
  | _ => exact .refl _ _

namespace Replied

variable {name : Str} {k k' : Client}

theorem silent (hs : k.Silent k') (h : k.Replied name) : k'.Replied name where
  answered := by
    rw [hs.delivered, hs.sent, hs.myPeerAddr]
    exact h.answered
  objects ha := by
    obtain ⟨l, hl, hnone⟩ := hs.avoids
    rw [hl] at ha
    rw [hs.delivered]
    exact h.objects ((List.mem_append.mp ha).resolve_right hnone)

/-- The name is set while nothing has been answered under one. -/
theorem named (h : k.Replied []) (name : Str) : k.Replied name where
  answered := by
    obtain ⟨early, late, hdelivered, hsent, hlate⟩ := h.answered
    -- without a name nothing is late
    obtain rfl := hlate rfl
    exact ⟨early, [], hdelivered, hsent, fun _ => rfl⟩
  objects := h.objects

/-- One message more, and its answer. -/
theorem react (uv : Uv) (c : ClientId) (m : Message) (h : k.Replied name) :
    (ServerApp.react uv c name m (k.handOver m)).Replied name := by
  have hsent₀ : (k.handOver m).sent = k.sent := by
    simp [Client.handOver, sent, log, setState, Act.sentMessage]
  have hdelivered : (ServerApp.react uv c name m (k.handOver m)).delivered =
      k.delivered ++ [m] := by
    rw [← delivered_handOver]
    rcases ServerApp.react_cases uv c name m (k.handOver m) with hidle | ⟨m', hsends⟩
    · exact hidle.delivered
    · exact hsends.delivered
  have hsent : (ServerApp.react uv c name m (k.handOver m)).sent =
      k.sent ++ (ServerApp.answer name k.myPeerAddr m).toList := by
    have hopen : (k.handOver m).IsOpen :=
      ⟨by simp [Client.handOver, setState, log], by simp [Client.handOver, setState, log]⟩
    have hreact := reads_sent.filterMap_react uv c name m hopen
    rw [Option.map_id] at hreact
    exact hreact.trans (congrArg (· ++ _) hsent₀)
  have haddr : (ServerApp.react uv c name m (k.handOver m)).myPeerAddr = k.myPeerAddr :=
    ServerApp.myPeerAddr_react uv c name m (k.handOver m)
  refine ⟨?_, fun ha => ?_⟩
  · rw [hdelivered, hsent, haddr]
    obtain ⟨early, late, hd, hs, hlate⟩ := h.answered
    have hone : ∀ (ms : List Message) (name' : Str),
        (ms ++ [m]).filterMap (ServerApp.answer name' k.myPeerAddr) =
          ms.filterMap (ServerApp.answer name' k.myPeerAddr) ++
            (ServerApp.answer name' k.myPeerAddr m).toList := fun ms name' => by
      rw [List.filterMap_append]
      cases hm : ServerApp.answer name' k.myPeerAddr m <;> simp [hm]
    -- the message is early while there is no name, and late once there is one
    by_cases hname : name = []
    · obtain rfl := hlate hname
      refine ⟨early ++ [m], [], ?_, ?_, fun _ => rfl⟩
      · rw [hd, List.append_nil, List.append_nil]
      · rw [hs, hone, hname, List.filterMap_nil, List.append_nil, List.append_nil]
    · refine ⟨early, late ++ [m], ?_, ?_, fun hnil => absurd hnil hname⟩
      · rw [hd, List.append_assoc]
      · rw [hs, hone, List.append_assoc]
  · rw [hdelivered]
    -- a request is answered or hung up on: an objection is an older one
    by_cases hm : m.IsRequest
    · obtain ⟨l, hl, hnone⟩ := (ServerApp.avoids_react uv c name hm (k.handOver m)).1
      rw [hl] at ha
      have hold := (List.mem_append.mp ha).resolve_right hnone
      obtain ⟨m', hm', hobjects⟩ := h.objects (by
        simpa [Client.handOver, log, setState] using hold)
      exact ⟨m', List.mem_append_left _ hm', hobjects⟩
    · exact ⟨m, List.mem_append_right _ List.mem_cons_self, hm⟩

/-- **A callback answers what it delivers.** -/
theorem serve (uv : Uv) (c : ClientId) (cb : Callback) (h : k.Replied name) :
    (k.serve uv c name cb).Replied name := by
  have hbuffer : ∀ {k : Client} (b : Str), k.Replied name → (k.setReceiveBuffer b).Replied name :=
    fun {k} _ h => silent (k := k) ⟨rfl, rfl, rfl, .refl _ k⟩ h
  rcases k.serve_cases uv c name cb with ⟨nread, base, rfl, hpos, hserve⟩ | ⟨hno, hidle⟩
  · rw [hserve]
    exact digest_preserves hbuffer _ (fun m _ h => h.react uv c m) (hbuffer _ h)
  · exact h.silent
      ⟨hidle.myPeerAddr, hidle.delivered, hidle.sent, avoids_serve_idle uv c name k hno⟩

theorem retire (held : Bool) (h : k.Replied name) : (k.retire held).Replied name := by
  refine h.silent ⟨myPeerAddr_retire held k, ?_, sent_retire held k, ?_⟩
  · cases held <;> simp [Client.retire, delivered, log, setState, Act.handedOver]
  · cases held with
    | false => exact ⟨[.connectionClosed, .deleteHandle, .state .closed],
        by simp [Client.retire, log, setState], by simp⟩
    | true => exact ⟨[.connectionClosed, .destructor, .deleteHandle, .state .closed],
        by simp [Client.retire, log, setState], by simp⟩

theorem destructor (h : k.Replied name) : (k.log .destructor).Replied name := by
  have hdelivered : (k.log .destructor).delivered = k.delivered := by
    simp [delivered, log, Act.handedOver]
  have havoids : k.Avoids (.assertFailed .unhandledMessage) (k.log .destructor) :=
    Avoids.not_log.mpr (by simp)
  have hs : k.Silent (k.log .destructor) := ⟨rfl, hdelivered, sent_destructor k, havoids⟩
  exact h.silent hs

/-- Nothing has happened to a connection that was just accepted. -/
theorem newcomer (uv : Uv) (c : ClientId) (name : Str) :
    ((ServerApp.newcomer uv c).readNow uv c).Replied name := by
  have hidle := ServerApp.idle_newcomer uv c
  have hnew : (ServerApp.newcomer uv c).Replied name := by
    refine ⟨⟨[], [], rfl, rfl, fun _ => rfl⟩, fun ha => ?_⟩
    simp [ServerApp.newcomer, NetClientIn.new, setState, setUvStream] at ha
  exact hnew.silent ⟨hidle.myPeerAddr, hidle.delivered, hidle.sent, avoids_read _ _⟩

end Replied

end Client

/-! ## All connections of a server -/

/-- What holds of a server between two events: it has no name before `start` returns, and answers
    under the name it has. -/
structure Replies (s : ServerRun) : Prop where
  sane : ServerSane s.world
  unnamed : s.startUp ≠ .returned → s.world.app.myName = []
  replied : ∀ c < s.world.next, (s.world.clients c).Replied s.world.app.myName

namespace Replies

variable {uv : Uv} {s : ServerRun} {e : ServerEvent}

theorem init : Replies ServerRun.init where
  sane := serverSane_init
  unnamed _ := rfl
  replied _ hc := absurd hc (Nat.not_lt_zero _)

/-- The name comes with the return of `start`, and stays. -/
theorem name_step (h : Replies s) (ha : (serverSystem uv).allowed s e) :
    ((serverStep uv s e).startUp ≠ .returned → (serverStep uv s e).world.app.myName = []) ∧
      (s.world.app.myName = [] ∨
        (serverStep uv s e).world.app.myName = s.world.app.myName) := by
  have hmove := serverStep_move h.sane ha
  cases e with
  | listen params =>
    have hstart : s.startUp ≠ .returned := by
      rw [show s.startUp = .notStarted from ha.2]
      decide
    have hname := h.unnamed hstart
    cases hmove with
    | aside _ _ _ _ hsame => exact ⟨fun _ => (hsame (by simp)).trans hname, Or.inl hname⟩
  | startUvLoop =>
    obtain ⟨-, port, hport⟩ := ha
    have hname := h.unnamed (by rw [hport]; simp)
    cases hmove with
    | aside _ _ _ _ hsame => exact ⟨fun _ => (hsame (by simp)).trans hname, Or.inl hname⟩
  | setName =>
    obtain ⟨-, port, hport⟩ := ha
    -- `start` has returned: the name may be anything from here on
    refine ⟨fun hne => absurd ?_ hne, Or.inl (h.unnamed (by rw [hport]; simp))⟩
    unfold serverStep
    rw [hport]
  | newConnection status acceptRes =>
    have hname : (serverStep uv s (.newConnection status acceptRes)).world.app.myName =
        s.world.app.myName := by
      cases hmove with
      | aside _ _ _ _ hsame => exact hsame (by simp)
      | accepted _ _ _ hsame => exact hsame
    exact ⟨fun hne => hname.trans (h.unnamed hne), Or.inr hname⟩
  | client c cb =>
    have hname : (serverStep uv s (.client c cb)).world.app.myName = s.world.app.myName := by
      cases hmove with
      | aside _ _ _ _ hsame => exact hsame (by simp)
      | served _ _ _ _ happ => rw [happ]
      | closed _ _ _ _ _ hsame => exact hsame
    exact ⟨fun hne => hname.trans (h.unnamed hne), Or.inr hname⟩

/-- The connections that were answered under the old name are answered under the new one. -/
theorem renamed (h : Replies s) (ha : (serverSystem uv).allowed s e) {c : ClientId}
    (hc : c < s.world.next) :
    (s.world.clients c).Replied (serverStep uv s e).world.app.myName := by
  rcases (h.name_step ha).2 with hnone | hsame
  · have hreplied := h.replied c hc
    rw [hnone] at hreplied
    exact hreplied.named _
  · rw [hsame]
    exact h.replied c hc

theorem step (h : Replies s) (ha : (serverSystem uv).allowed s e) :
    Replies (serverStep uv s e) where
  sane := serverSane_step s e h.sane ha
  unnamed := (h.name_step ha).1
  replied c hc := by
    have hmove := serverStep_move h.sane ha
    have hrenamed := fun {c} => h.renamed (c := c) ha
    generalize (serverStep uv s e).world = w' at hmove hrenamed hc ⊢
    cases hmove with
    | aside _ hclients _ hnext =>
      rw [hnext] at hc
      rw [hclients]
      exact hrenamed hc
    | accepted hclients _ hnext =>
      rw [hnext] at hc
      rw [hclients]
      split
      · exact .newcomer uv s.world.next _
      · rename_i hne
        have hold := hrenamed (Nat.lt_of_le_of_ne (Nat.lt_succ_iff.mp hc) hne)
        split
        · exact hold.destructor
        · exact hold
    -- a callback is served under the name the server already had
    | @served d cb _ _ _ hclients happ hnext =>
      rw [hnext] at hc
      rw [hclients, happ]
      split
      · rename_i hcd
        rw [← hcd]
        exact (h.replied c hc).serve uv c cb
      · exact h.replied c hc
    | closed _ _ hclients _ hnext =>
      rw [hnext] at hc
      rw [hclients]
      split
      · rename_i hcd
        rw [← hcd]
        exact (hrenamed hc).retire _
      · exact hrenamed hc

theorem run {es : List ServerEvent} (hv : (serverSystem uv).Valid ServerRun.init es) :
    Replies ((serverSystem uv).run ServerRun.init es) :=
  System.run_invariant (fun _ _ h ha => step h ha) init hv

end Replies

/-- A server that is greeted on its only connection. -/
def serverGreeted : List ServerEvent :=
  [.listen { listenPort := 5000, listenPortRange := 1 }, .startUvLoop, .setName,
    .newConnection 0 0, .client 0 (.read 22 (some "HANDSH V01 a:1 _NONE_\n".toList))]

/-- **A server answers every connection in turn**, whatever it is sent and however its connections
    and its start interleave: the first requests of a connection without a name, the others with
    the server's. It objects to nothing but what is no request. -/
theorem server_replies_inTurn (uv : Uv) {es : List ServerEvent}
    (hv : (serverSystem uv).Valid ServerRun.init es) :
    let s := (serverSystem uv).run ServerRun.init es
    ∀ c < s.world.next, (s.world.clients c).Replied s.world.app.myName :=
  (Replies.run hv).replied

theorem server_replies_inTurn_greeted :
    (((serverSystem .cooperative).run ServerRun.init serverGreeted).world.clients 0).Replied
      ((serverSystem .cooperative).run ServerRun.init serverGreeted).world.app.myName :=
  have hv : (serverSystem .cooperative).Valid ServerRun.init serverGreeted := by decide
  server_replies_inTurn .cooperative hv 0 (by decide)

/-! ## In a network -/

namespace Program

/-- What the program calls itself. -/
def name : (p : Program) → p.Process → Str
  | .client _, w => BaseApp.getName w.app
  | .server _, s => s.world.app.myName
  | .node _, w => w.app.myName

theorem replied {p : Program} {uv : Uv} (hp : p = .server uv) {es : List p.Event}
    (hv : p.system.Valid p.init es) {c : ClientId} (hc : c < p.count (p.system.run p.init es)) :
    (p.conn (p.system.run p.init es) c).Replied (p.name (p.system.run p.init es)) := by
  subst hp
  exact (Replies.run hv).replied c hc

variable {Γ : Rumours} {L : Int32 → Prop} {p : Program} {s : p.Process} {uv : Uv} {c : ClientId}

theorem Conduct.polite (h : p.Conduct Γ L s) (hp : p = .client uv) (hc : c < p.count s) :
    (p.conn s c).Polite := by
  subst hp
  exact h c hc

theorem Conduct.words (h : p.Conduct Γ L s) (hp : p = .server uv) (hc : c < p.count s) :
    (p.name s = [] ∨ Lib.IsWord (p.name s)) ∧ Lib.IsWord (p.conn s c).myPeerAddr := by
  subst hp
  exact ⟨h.texts.name, h.texts.addr c hc⟩

end Program

section

variable {ι : Type} [DecidableEq ι] {prog : ι → Program}
  {link : ι → ClientId → Option (ι × ClientId)} {es : List (NetworkEvent prog)}

theorem Proper.replied (h : Proper prog link es) {j : ι} {uv : Uv} (hj : prog j = .server uv)
    {d : ClientId} (hd : d < (prog j).count ((networkRun prog link es).node j)) :
    ((prog j).conn ((networkRun prog link es).node j) d).Replied
      ((prog j).name ((networkRun prog link es).node j)) := by
  obtain ⟨hv, hrun⟩ := (network prog link).node_run j h.valid
  change (networkRun prog link es).node j = _ at hrun
  rw [hrun] at hd ⊢
  exact Program.replied hj hv hd

/-- **What comes back from a server** are the answers to one's own requests, in the order they were
    made: to the first of them those of a server without a name, to the others those of the
    server under its name. -/
theorem network_replies (h : Proper prog link es) {i j : ι} {c d : ClientId} {uv : Uv}
    (hj : prog j = .server uv) (hi : ∀ uv, prog i ≠ .server uv)
    (hlink : link i c = some (j, d)) (hback : link j d = some (i, c))
    (hc : c < (prog i).count ((networkRun prog link es).node i))
    (hd : d < (prog j).count ((networkRun prog link es).node j)) :
    let n := networkRun prog link es
    let asker := (prog i).conn (n.node i) c
    let addr := ((prog j).conn (n.node j) d).myPeerAddr
    ∃ early late, early ++ late <+: asker.sent ∧
      asker.delivered <+: (early.filterMap (ServerApp.answer [] addr) ++
        late.filterMap (ServerApp.answer ((prog j).name (n.node j)) addr)).filterMap heard := by
  intro n asker addr
  obtain ⟨early, late, hdelivered, hsent, -⟩ := (h.replied hj hd).answered
  refine ⟨early, late, ?_, ?_⟩
  · rw [← hdelivered, ← h.heard_sent hc hi]
    exact h.hears hback hd hc
  · rw [← hsent]
    exact h.hears hlink hc hd

theorem network_replies_greeting : ∃ early late,
    early ++ late <+: ((pair false).conn ((networkRun pair joined greeting).node false) 0).sent ∧
      ((pair false).conn ((networkRun pair joined greeting).node false) 0).delivered <+:
        (early.filterMap (ServerApp.answer [] "127.0.0.1:35091".toList) ++
          late.filterMap (ServerApp.answer ":5000".toList "127.0.0.1:35091".toList)).filterMap
            heard :=
  network_replies proper_greeting (i := false) (j := true) (c := 0) (d := 0) rfl
    (by simp [pair]) rfl rfl (by decide) (by decide)

/-- **The server handles whatever the client program says to it.** -/
theorem network_handled (h : Proper prog link es) {j : ι} {d : ClientId} {uv : Uv}
    (hj : prog j = .server uv) (hd : d < (prog j).count ((networkRun prog link es).node j))
    (hpeer : ∀ q ∈ link j d, ∃ uv, prog q.1 = .client uv) :
    .assertFailed .unhandledMessage ∉
      ((prog j).conn ((networkRun prog link es).node j) d).acts := by
  intro ha
  obtain ⟨m, hm, hobjects⟩ := (h.replied hj hd).objects ha
  obtain ⟨i, c, hlink, hc, m₀, hm₀, hheard⟩ := h.said hd hm
  obtain ⟨uv', hi⟩ := hpeer (i, c) hlink
  refine hobjects ?_
  -- what the client program says is heard as it was said
  have hpolite := ((h.fulfils_any.1 i).conduct.polite hi hc).sent m₀ (Client.mem_sent.mp hm₀)
  rw [heard_of_wf hpolite.1] at hheard
  obtain rfl := Option.some.inj hheard
  cases m₀ with
  | handshake v y a => exact hpolite.2.1
  | ping text => trivial
  | _ => exact absurd hpolite.2 id

theorem network_handled_greeting : .assertFailed .unhandledMessage ∉
    ((pair true).conn ((networkRun pair joined greeting).node true) 0).acts :=
  network_handled proper_greeting (j := true) (d := 0) rfl (by decide) fun q hq =>
    ⟨.cooperative, by rw [← Option.mem_some.mp hq]; rfl⟩

end

end TcpUv
