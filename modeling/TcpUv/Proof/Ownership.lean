import TcpUv.Proof.Calm
import TcpUv.Proof.NodeHandlers
import TcpUv.Proof.ServerRules

/-!
# Who owns a client while it is called back

The stores own the clients: `myPeers` of a node, `myClients` of a server. A callback of a
client is in order if the client has an owner when the callback starts and nothing of it is
touched once its destructor has run (`InOrder`).

Both stores let a client go in the middle of its own close callback, after which `onClose`
writes `myState`. They also let go of clients whose socket is still open: a node on the close
of another client of the same address text, a server when a connection from the same address
is accepted. `ownership_order` says that these are all the ways to fail.
-/

set_option autoImplicit false

namespace TcpUv

open Lib NodeApp

/-! ## The property -/

/-- The entries of `myPeers` that hold a client. -/
def NodeApp.owners (w : NodeWorld) (c : ClientId) : Nat :=
  w.app.myPeers.countP fun p => p.myClient = some c

/-- The entries of `myClients` that hold a client. -/
def ServerApp.owners (w : World ServerApp) (c : ClientId) : Nat := w.app.held.count c

/-- An entry in which a method reads or writes the object; the handle is not part of it. -/
def Act.touches : Act → Bool
  | .destructor | .deleteHandle => false
  | _ => true

/-- A callback that went from one world to the other touched its client only while the client had
    an owner. The destructor runs when the last owner lets go. -/
structure InOrder {σ : Type} (owners : World σ → ClientId → Nat) (c : ClientId)
    (w w' : World σ) : Prop where
  owned : 0 < owners w c
  order : ∀ l₁ l₂, (w'.clients c).acts = (w.clients c).acts ++ (l₁ ++ .destructor :: l₂) →
    ∀ a ∈ l₂, a.touches = false

section

variable {σ : Type} {owners : World σ → ClientId → Nat} {c : ClientId} {w w' : World σ}

/-- A callback in which the destructor does not run. -/
theorem InOrder.of_calm (howned : 0 < owners w c) (h : (w.clients c).Calm (w'.clients c)) :
    InOrder owners c w w' := by
  refine ⟨howned, fun l₁ l₂ hl => ?_⟩
  obtain ⟨l, hl', hnone⟩ := h.acts
  rw [hl', List.append_cancel_left_eq] at hl
  exact absurd (by rw [hl]; simp) hnone

/-- The destructor ran, and a state was assigned after it. -/
theorem not_inOrder {l : List Act} {s : State}
    (h : (w'.clients c).acts = (w.clients c).acts ++ (l ++ [.destructor, .deleteHandle, .state s])) :
    ¬ InOrder owners c w w' := by
  intro hin
  have htouch := hin.order l [.deleteHandle, .state s] h (.state s) (by simp)
  cases htouch

end

/-- An event that leaves the node's entry of a client alone: it is not the close of a client that
    has its address text, itself included. -/
def NodeKeeps (c : ClientId) (w : NodeWorld) (e : NodeEvent) : Prop :=
  ∀ d, e = .client d .closed → c < w.next →
    (w.clients d).myPeerAddr ≠ (w.clients c).myPeerAddr

/-- An event that leaves the server's entry of a client alone: it neither closes the client nor
    accepts a connection from its address. -/
def ServerKeeps (uv : Uv) (c : ClientId) (s : ServerRun) : ServerEvent → Prop
  | .client d .closed => d ≠ c
  | .newConnection status acceptRes => 0 ≤ status → 0 ≤ acceptRes → c < s.world.next →
      getRemoteAddress uv (uv.getpeername s.world.next 1) ≠ (s.world.clients c).myPeerAddr
  | _ => True

/-! ## The node -/

theorem NodeApp.owners_pos {w : NodeWorld} {c : ClientId} :
    0 < owners w c ↔ ∃ p ∈ w.app.myPeers, p.myClient = some c := by
  simp [owners, List.countP_pos_iff]

/-- What a node does with a message of an attached client, or to gossip with it: calm moves of that
    client, candidates, and attempts on them. -/
theorem NodeApp.calmApp {uv : Uv} {c : ClientId} {I : NodeWorld → Prop}
    (hattached : ∀ {w : NodeWorld}, I w → (w.clients c).Attached)
    (hmove : ∀ {w : NodeWorld} {f : Client → Client}, (w.clients c).Calm (f (w.clients c)) → I w →
      I (w.modify c f))
    (hcand : ∀ {w : NodeWorld} (host : Str) (port : Int32), I w →
      I { w with app := w.app.addOutPeerCandidate host port 1 })
    (htry : ∀ {w : NodeWorld} (key : Str), I w → I (tryCandidate uv w key)) :
    CalmApp uv c I := by
  have hclose : ∀ {w : NodeWorld}, I w → I (close c w).1 := by
    intro w h
    rw [close_eq (hattached h)]
    exact hmove (.shut _) h
  have hsend : ∀ {w : NodeWorld} (m : Message), I w → I (sendMessage uv c m w).1 := by
    intro w m h
    rw [sendMessage_eq uv (hattached h)]
    exact hmove (.send _ _ _) h
  refine ⟨hattached, hmove, fun h => ?_, fun m h => ?_⟩
  · exact gossip_preserves (I := I) (fun _ _ _ h => hsend _ h) h
  · exact messageReceived_preserves (I := I) hclose hsend
      (fun _ h => hmove ⟨rfl, rfl, id, [], (List.append_nil _).symm, by simp⟩ h) hcand htry m h

/-- What a node does short of closing: it creates clients and appends an entry for each, and
    moves the clients there are. -/
structure Grows (w w' : NodeWorld) : Prop where
  next : w.next ≤ w'.next
  peers : ∃ l, w'.app.myPeers = w.app.myPeers ++ l ∧
    ∀ c, (∃ p ∈ l, p.myClient = some c) ↔ w.next ≤ c ∧ c < w'.next
  calm : ∀ c < w.next, (w.clients c).Calm (w'.clients c)
  fresh : ∀ c, w.next ≤ c → c < w'.next → (w'.clients c).Sound

namespace Grows

variable {w w' w'' : NodeWorld}

theorem refl (w : NodeWorld) : Grows w w :=
  ⟨Nat.le_refl _, ⟨[], (List.append_nil _).symm, fun c => by simp⟩, fun _ _ => .refl _,
    fun _ hle hlt => absurd hlt (Nat.not_lt.mpr hle)⟩

theorem between {i j k n : Nat} (hij : i ≤ j) (hjk : j ≤ k) :
    (i ≤ n ∧ n < j) ∨ (j ≤ n ∧ n < k) ↔ i ≤ n ∧ n < k := by omega

theorem trans (h : Grows w w') (h' : Grows w' w'') : Grows w w'' := by
  obtain ⟨l, hl, hmem⟩ := h.peers
  obtain ⟨l', hl', hmem'⟩ := h'.peers
  have hn := h.next
  have hn' := h'.next
  refine ⟨Nat.le_trans hn hn', ⟨l ++ l', by rw [hl', hl, List.append_assoc], fun c => ?_⟩,
    fun c hc => (h.calm c hc).trans (h'.calm c (Nat.lt_of_lt_of_le hc hn)), fun c hle hlt => ?_⟩
  · have hboth : (∃ p ∈ l ++ l', p.myClient = some c) ↔
        (∃ p ∈ l, p.myClient = some c) ∨ ∃ p ∈ l', p.myClient = some c := by
      simp only [List.mem_append, or_and_right, exists_or]
    rw [hboth, hmem, hmem']
    exact between hn hn'
  · by_cases hc : c < w'.next
    · exact (h'.calm c hc).sound (h.fresh c hle hc)
    · exact h'.fresh c (Nat.le_of_not_lt hc) hlt

/-- A step that is about neither the clients nor the peers. -/
theorem still (h : Grows w w') (hclients : w''.clients = w'.clients) (hnext : w''.next = w'.next)
    (hpeers : w''.app.myPeers = w'.app.myPeers) : Grows w w'' := by
  refine ⟨by rw [hnext]; exact h.next, ?_, ?_, ?_⟩
  · rw [hpeers, hnext]
    exact h.peers
  · rw [hclients]
    exact h.calm
  · rw [hclients, hnext]
    exact h.fresh

theorem modify {c : ClientId} {f : Client → Client}
    (hf : (w'.clients c).Calm (f (w'.clients c))) (h : Grows w w') : Grows w (w'.modify c f) := by
  have hclient : ∀ d, (w'.clients d).Calm ((w'.modify c f).clients d) := by
    intro d
    rw [World.clients_modify]
    split
    · rename_i hd
      rw [hd]
      exact hf
    · exact .refl _
  exact ⟨h.next, h.peers, fun d hd => (h.calm d hd).trans (hclient d),
    fun d hle hlt => (hclient d).sound (h.fresh d hle hlt)⟩

/-- A client is created, and an entry appended for it. -/
theorem create (w : NodeWorld) (k : Client) (out : Bool) (hk : k.Sound) :
    Grows w { w.create k with
      app := { w.app with myPeers := w.app.myPeers ++ [⟨some w.next, out⟩] } } := by
  refine ⟨Nat.le_succ _, ⟨[⟨some w.next, out⟩], rfl, fun c => ?_⟩, fun c hc => ?_,
    fun c hle hlt => ?_⟩
  · show _ ↔ w.next ≤ c ∧ c < w.next + 1
    simp only [List.mem_singleton, exists_eq_left, Option.some.injEq]
    exact ⟨fun he => he ▸ ⟨Nat.le_refl _, Nat.lt_succ_self _⟩,
      fun hc => Nat.le_antisymm hc.1 (Nat.lt_succ_iff.mp hc.2)⟩
  · show (w.clients c).Calm ((w.create k).clients c)
    rw [World.clients_create_ne _ _ (Nat.ne_of_lt hc)]
    exact .refl _
  · obtain rfl := Nat.le_antisymm (Nat.lt_succ_iff.mp hlt) hle
    show ((w.create k).clients w.next).Sound
    rw [World.clients_create_next]
    exact hk

theorem calm_connect (uv : Uv) (c : ClientId) (w : NodeWorld) :
    (w.clients c).Calm ((connect uv c w).1.clients c) := by
  rcases clients_connect uv c w with ⟨-, heq⟩ | ⟨-, b, heq⟩
  · rw [heq]
    exact .refl _
  · rw [heq]
    exact ⟨rfl, rfl, fun _ _ => rfl, [.connectCall, .state .connecting], (w.clients c).acts_dialled,
      by simp⟩

theorem connect (uv : Uv) (c : ClientId) (h : Grows w w') : Grows w (connect uv c w').1 := by
  have hclient : ∀ d, (w'.clients d).Calm ((TcpUv.connect uv c w').1.clients d) := by
    intro d
    by_cases hd : d = c
    · rw [hd]
      exact calm_connect uv c w'
    · rw [clients_connect_ne uv hd]
      exact .refl _
  refine ⟨?_, ?_, fun d hd => (h.calm d hd).trans (hclient d), fun d hle hlt => ?_⟩
  · rw [next_connect]
    exact h.next
  · rw [next_connect, app_connect]
    exact h.peers
  · rw [next_connect] at hlt
    exact (hclient d).sound (h.fresh d hle hlt)

theorem tryCandidate (uv : Uv) (key : Str) (h : Grows w w') :
    Grows w (tryCandidate uv w' key) := by
  have htried : Grows w (modifyCand key PeerCandidateInfo.tried w') := h.still rfl rfl rfl
  have happended : ∀ i : PeerCandidateInfo, Grows w (TcpUv.connect uv w'.next
      (appendOut i.myHost i.myPort (modifyCand key PeerCandidateInfo.tried w'))).1 := fun i =>
    (htried.trans (create _ (PeerClientOut.new i.myHost i.myPort) true
      ⟨(fun hs => by cases hs), by simp [PeerClientOut.new, NetClientOut.new]⟩)).connect uv _
  have hround := round_tryCandidate uv w' key
  generalize NodeApp.tryCandidate uv w' key = w'' at hround ⊢
  cases hround with
  | skipped => exact h
  | self => exact h.still rfl rfl rfl
  | attempted i => exact (happended i).still rfl rfl rfl
  | failed i => exact happended i

theorem tryOutConnections (uv : Uv) (h : Grows w w') : Grows w (tryOutConnections uv w') :=
  rounds_preserve (fun key _ _ h => h.tryCandidate uv key) h

theorem candidate (host : Str) (port : Int32) (h : Grows w w') :
    Grows w { w' with app := w'.app.addOutPeerCandidate host port 1 } := by
  refine h.still rfl rfl ?_
  unfold addOutPeerCandidate
  dsimp only
  split <;> rfl

section

variable {uv : Uv} {c : ClientId} (hc : c < w.next) (ha : (w.clients c).Attached)

include hc ha

/-- The rule of the calm callbacks applies. -/
theorem calmApp : CalmApp uv c (Grows w) :=
  NodeApp.calmApp (fun h => (h.calm c hc).attached ha) (fun hf h => h.modify hf)
    (fun host port h => h.candidate host port) fun key h => h.tryCandidate uv key

/-- A callback that is not the last one. -/
theorem callback {cb : Callback} (hcb : cb ≠ .closed) :
    Grows w (callback uv c w cb).settle :=
  ((calmApp hc ha).callback hcb (refl w)).still (Outcome.clients_settle _) (Outcome.next_settle _)
    (by rw [Outcome.app_settle])

end

theorem listenStarted (uv : Uv) (port : Int32) (h : Grows w w') :
    Grows w (NodeApp.listenStarted uv port w') :=
  tryOutConnections uv (h.still rfl rfl rfl)

theorem start (uv : Uv) (params : AppParams) (w : NodeWorld) :
    Grows w (NodeApp.start uv params w) := by
  have hpeers : (w.app.addStartCandidates params.extraPeers).myPeers = w.app.myPeers := by
    have hadd : ∀ (a : NodeApp) (host : Str) (port : Int32) (n : Int),
        (a.addOutPeerCandidate host port n).myPeers = a.myPeers := by
      intro a host port n
      unfold addOutPeerCandidate
      dsimp only
      split <;> rfl
    exact startCandidates_preserve (I := fun a => a.myPeers = w.app.myPeers)
      (fun _ h => (hadd _ _ _ _).trans h) (fun _ _ _ h => (hadd _ _ _ _).trans h) rfl
  have hlisten : ∀ (n : Nat) (port : Int32) {w' : NodeWorld}, Grows w w' →
      Grows w (doListenFrom uv n port w').1 := by
    intro n
    induction n with
    | zero => intro port w' h; exact h
    | succ n ih =>
      intro port w' h
      rw [doListenFrom]
      split
      · exact listenStarted uv port (h.still rfl rfl rfl)
      · exact ih (port + 1) h
  have hcandidates : Grows w { w with app := w.app.addStartCandidates params.extraPeers } :=
    (refl w).still rfl rfl hpeers
  have hstarted := hlisten (max (min params.listenPortRange.toInt 10) 1).toNat params.listenPort
    hcandidates
  unfold NodeApp.start startWithListen
  dsimp only
  split
  · exact hstarted
  · exact hstarted.still rfl rfl rfl

theorem newConnection (uv : Uv) (status acceptRes : Int) (w : NodeWorld) :
    Grows w (onNewConnection uv status acceptRes w) := by
  unfold onNewConnection
  split
  · exact refl w
  · split
    · exact refl w
    · have hin := create w (NetClientIn.new (getRemoteAddress uv (uv.getpeername w.next 1))) false
        ⟨fun _ => rfl, by simp [NetClientIn.new, Client.setUvStream, Client.setState]⟩
      have hattached : ((NodeApp.inConnectionReceived w.next (w.create (NetClientIn.new
          (getRemoteAddress uv (uv.getpeername w.next 1))))).clients w.next).Attached :=
        (hin.fresh w.next (Nat.le_refl _) (Nat.lt_succ_self _)).attached
      have hread := doRead_eq uv hattached
      exact (congrArg (Grows w) hread).mpr (hin.modify (.read _ _))

end Grows

/-- **Every event but a close**: clients are created with an entry each, and nobody is destroyed. -/
theorem grows_step {uv : Uv} {w : NodeWorld} {e : NodeEvent}
    (hattached : ∀ c < w.next, (w.clients c).Attached) (ha : (nodeSystem uv).allowed w e)
    (he : ∀ d, e ≠ .client d .closed) : Grows w (nodeStep uv w e) := by
  cases e with
  | start params => exact .start uv params w
  | listenStarted port => exact .listenStarted uv port (.refl w)
  | newConnection status acceptRes => exact .newConnection uv status acceptRes w
  | client c cb => exact .callback ha.2.1 (hattached c ha.2.1) fun hcb => he c (by rw [hcb])

/-- A client whose last owner, if it has one, lets go. -/
def Client.leave (gone : Bool) (k : Client) : Client := if gone then destroy k else k

/-- `onClose` has reported to the app. -/
def Client.reported (k : Client) : Client :=
  ({ k with tcp := { k.tcp with closed := true } } : Client).log .connectionClosed

namespace Client

theorem attached_leave {gone : Bool} {k : Client} (h : k.Attached) : (k.leave gone).Attached := by
  unfold leave destroy
  split
  · split
    · exact h
    · exact h
  · exact h

@[simp] theorem kind_leave (gone : Bool) (k : Client) : (k.leave gone).kind = k.kind := by
  unfold leave destroy
  split
  · split <;> rfl
  · rfl

theorem acts_leave (gone : Bool) (k : Client) :
    (k.leave gone).acts = k.acts ++ if gone then [.destructor] else [] := by
  unfold leave destroy
  cases gone with
  | true =>
    rw [if_pos rfl, if_pos rfl]
    split
    · rfl
    · rfl
  | false => exact (List.append_nil _).symm

end Client

/-- **A close** takes out the entries of the address text, and destroys whoever they held. -/
structure Closes (d : ClientId) (w w' : NodeWorld) : Prop where
  next : w'.next = w.next
  owned : ∀ c, 0 < owners w' c ↔
    0 < owners w c ∧ (w.clients d).myPeerAddr ≠ (w.clients c).myPeerAddr
  self : w'.clients d = (((w.clients d).reported.leave (0 < owners w d)).log
    .deleteHandle).setState .closed
  others : ∀ c ≠ d, w'.clients c = (w.clients c).leave
    (0 < owners w c ∧ (w.clients d).myPeerAddr = (w.clients c).myPeerAddr)

theorem closes_step (uv : Uv) (d : ClientId) (w : NodeWorld) :
    Closes d w (nodeStep uv w (.client d .closed)) := by
  show Closes d w (onClose d (w.modify d fun k => { k with tcp := { k.tcp with closed := true } }))
  unfold onClose
  dsimp only
  rw [World.modify_modify, World.modify_modify]
  generalize hw : w.modify d _ = w₁
  have hself : w₁.clients d = (w.clients d).reported := by
    rw [← hw, World.clients_modify_self]
    rfl
  have hothers : ∀ c ≠ d, w₁.clients c = w.clients c := fun c hc => by
    rw [← hw, World.clients_modify_ne _ _ hc]
  have haddr : ∀ c, (w₁.clients c).myPeerAddr = (w.clients c).myPeerAddr := by
    intro c
    by_cases hc : c = d
    · rw [hc, hself]
      rfl
    · rw [hothers c hc]
  have happ : w₁.app = w.app := by rw [← hw]; rfl
  have hspec := connectionClosed_spec d w₁
  have hreleased : ∀ c, c ∈ released w₁ d (w₁.clients d).myPeerAddr ↔
      0 < owners w c ∧ (w.clients d).myPeerAddr = (w.clients c).myPeerAddr := by
    intro c
    rw [mem_released, owners_pos, haddr, haddr, happ]
    refine and_congr_right fun _ => ⟨fun h => ?_, fun h => Or.inr h.symm⟩
    rcases h with rfl | h
    · rfl
    · exact h.symm
  have hclients : ∀ c, (NodeApp.connectionClosed d w₁).clients c = (w₁.clients c).leave
      (0 < owners w c ∧ (w.clients d).myPeerAddr = (w.clients c).myPeerAddr) := by
    intro c
    rw [clients_connectionClosed]
    simp only [hreleased, Client.leave, decide_eq_true_eq]
  refine ⟨?_, fun c => ?_, ?_, fun c hc => ?_⟩
  · show (NodeApp.connectionClosed d w₁).next = w.next
    rw [hspec.2.1, ← hw]
    rfl
  · rw [owners_pos, owners_pos]
    show (∃ p ∈ (NodeApp.connectionClosed d w₁).app.myPeers, p.myClient = some c) ↔ _
    rw [hspec.2.2.2, happ]
    simp only [List.mem_filter, stays, haddr]
    constructor
    · rintro ⟨p, ⟨hp, hstays⟩, hpc⟩
      rw [hpc] at hstays
      simp only [decide_eq_true_eq, not_or] at hstays
      exact ⟨⟨p, hp, hpc⟩, fun h => hstays.2 h.symm⟩
    · rintro ⟨⟨p, hp, hpc⟩, hne⟩
      refine ⟨p, ⟨hp, ?_⟩, hpc⟩
      rw [hpc]
      simp only [decide_eq_true_eq, not_or]
      exact ⟨fun h => hne (by rw [h]), fun h => hne h.symm⟩
  · show ((NodeApp.connectionClosed d w₁).modify d _).clients d = _
    rw [World.clients_modify_self, hclients d, hself]
    simp
  · show ((NodeApp.connectionClosed d w₁).modify d _).clients c = _
    rw [World.clients_modify_ne _ _ hc, hclients c, hothers c hc]

/-! ### The run -/

/-- A node and the events that led to it: a client has an owner as long as no event took its entry
    out, and its destructor has run once it has none. -/
structure NodeOwned (uv : Uv) (es : List NodeEvent) (w : NodeWorld) : Prop where
  attached : ∀ c < w.next, (w.clients c).Attached
  owned : ∀ c, (c < w.next → 0 < owners w c) ↔
    (nodeSystem uv).Along (NodeKeeps c) NodeWorld.init es
  alive : ∀ c < w.next, 0 < owners w c ↔ .destructor ∉ (w.clients c).acts

section

variable {uv : Uv}

/-- What a history of a client says of its owners after a close. -/
theorem Closes.alive {d : ClientId} {w w' : NodeWorld} (hs : Closes d w w') {c : ClientId}
    (h : 0 < owners w c ↔ .destructor ∉ (w.clients c).acts) :
    0 < owners w' c ↔ .destructor ∉ (w'.clients c).acts := by
  rw [hs.owned]
  by_cases hc : c = d
  · subst hc
    rw [hs.self]
    simp only [Client.setState, Client.log, Client.acts_leave, Client.reported]
    by_cases howned : 0 < owners w c
    · simp [howned]
    · simp [howned, not_not.mp fun hnone => howned (h.mpr hnone)]
  · rw [hs.others c hc, Client.acts_leave]
    by_cases haddr : (w.clients d).myPeerAddr = (w.clients c).myPeerAddr
    · by_cases howned : 0 < owners w c
      · simp [howned, haddr]
      · simp [howned, haddr, not_not.mp fun hnone => howned (h.mpr hnone)]
    · simp [haddr, h]

theorem Closes.attached {d : ClientId} {w w' : NodeWorld} (hs : Closes d w w') {c : ClientId}
    (h : (w.clients c).Attached) : (w'.clients c).Attached := by
  by_cases hc : c = d
  · subst hc
    rw [hs.self]
    exact Client.attached_leave (k := (w.clients c).reported) h
  · rw [hs.others c hc]
    exact Client.attached_leave h

theorem Closes.kind {d : ClientId} {w w' : NodeWorld} (hs : Closes d w w') (c : ClientId) :
    (w'.clients c).kind = (w.clients c).kind := by
  by_cases hc : c = d
  · subst hc
    rw [hs.self]
    exact Client.kind_leave _ (w.clients c).reported
  · rw [hs.others c hc, Client.kind_leave]

theorem Grows.owned {w w' : NodeWorld} (hs : Grows w w') (c : ClientId) :
    0 < owners w' c ↔ 0 < owners w c ∨ w.next ≤ c ∧ c < w'.next := by
  obtain ⟨l, hl, hmem⟩ := hs.peers
  rw [owners_pos, owners_pos, hl, ← hmem]
  simp only [List.mem_append, or_and_right, exists_or]

theorem Grows.acts {w w' : NodeWorld} (hs : Grows w w') {c : ClientId} (hc : c < w.next) :
    .destructor ∈ (w'.clients c).acts ↔ .destructor ∈ (w.clients c).acts := by
  obtain ⟨l, hl, hnone⟩ := (hs.calm c hc).acts
  rw [hl, List.mem_append]
  exact ⟨fun hm => hm.resolve_right hnone, Or.inl⟩

theorem Grows.attached {w w' : NodeWorld} (hs : Grows w w')
    (h : ∀ c < w.next, (w.clients c).Attached) {c : ClientId} (hc : c < w'.next) :
    (w'.clients c).Attached := by
  by_cases hold : c < w.next
  · exact (hs.calm c hold).attached (h c hold)
  · exact (hs.fresh c (Nat.le_of_not_lt hold) hc).attached

/-- An event is a close or it is not. -/
theorem nodeStep_cases {w : NodeWorld} {e : NodeEvent} (h : ∀ c < w.next, (w.clients c).Attached)
    (ha : (nodeSystem uv).allowed w e) :
    (∃ d, e = .client d .closed ∧ Closes d w (nodeStep uv w e)) ∨
      (∀ d, e ≠ .client d .closed) ∧ Grows w (nodeStep uv w e) := by
  by_cases hclosed : ∃ d, e = .client d .closed
  · obtain ⟨d, rfl⟩ := hclosed
    exact Or.inl ⟨d, rfl, closes_step uv d w⟩
  · rw [not_exists] at hclosed
    exact Or.inr ⟨hclosed, grows_step h ha hclosed⟩

/-- Either way no client is lost, and each keeps its class. -/
theorem keeps_step {w : NodeWorld} {e : NodeEvent} (h : ∀ c < w.next, (w.clients c).Attached)
    (ha : (nodeSystem uv).allowed w e) :
    w.next ≤ (nodeStep uv w e).next ∧
      (∀ c < (nodeStep uv w e).next, ((nodeStep uv w e).clients c).Attached) ∧
      ∀ c < w.next, ((nodeStep uv w e).clients c).kind = (w.clients c).kind := by
  rcases nodeStep_cases h ha with ⟨d, -, hs⟩ | ⟨-, hs⟩
  · refine ⟨Nat.le_of_eq hs.next.symm, fun c hc => ?_, fun c _ => hs.kind c⟩
    rw [hs.next] at hc
    exact hs.attached (h c hc)
  · exact ⟨hs.next, fun c hc => hs.attached h hc, fun c hc => (hs.calm c hc).kind⟩

theorem NodeOwned.step {es : List NodeEvent} {e : NodeEvent}
    (h : NodeOwned uv es ((nodeSystem uv).run NodeWorld.init es))
    (ha : (nodeSystem uv).allowed ((nodeSystem uv).run NodeWorld.init es) e) :
    NodeOwned uv (es ++ [e])
      ((nodeSystem uv).step ((nodeSystem uv).run NodeWorld.init es) e) := by
  have halong := fun c => (nodeSystem uv).along_snoc (NodeKeeps c) NodeWorld.init es e
  generalize (nodeSystem uv).run NodeWorld.init es = w at h ha halong ⊢
  rcases nodeStep_cases h.attached ha with ⟨d, rfl, hs⟩ | ⟨hclosed, hs⟩
  · change Closes d w ((nodeSystem uv).step w (.client d .closed)) at hs
    generalize (nodeSystem uv).step w (.client d .closed) = w' at hs ⊢
    refine ⟨fun c hc => ?_, fun c => ?_, fun c hc => ?_⟩
    · rw [hs.next] at hc
      exact hs.attached (h.attached c hc)
    · rw [halong, ← h.owned, hs.next, hs.owned]
      constructor
      · intro hboth
        refine ⟨fun hc => (hboth hc).1, fun d' hd' hc => ?_⟩
        obtain rfl := (NodeEvent.client.inj hd').1
        exact (hboth hc).2
      · rintro ⟨howned, hkeeps⟩ hc
        exact ⟨howned hc, hkeeps d rfl hc⟩
    · rw [hs.next] at hc
      exact hs.alive (h.alive c hc)
  · change Grows w ((nodeSystem uv).step w e) at hs
    generalize (nodeSystem uv).step w e = w' at hs ⊢
    have hkeeps : ∀ c, NodeKeeps c w e := fun c d he => absurd he (hclosed d)
    refine ⟨fun c hc => hs.attached h.attached hc, fun c => ?_, fun c hc => ?_⟩
    · rw [halong, ← h.owned, hs.owned]
      constructor
      · intro howned
        refine ⟨fun hold => ?_, hkeeps c⟩
        have hnow := howned (Nat.lt_of_lt_of_le hold hs.next)
        exact hnow.resolve_right fun hnew => Nat.not_lt.mpr hnew.1 hold
      · rintro ⟨howned, -⟩ hc
        by_cases hold : c < w.next
        · exact Or.inl (howned hold)
        · exact Or.inr ⟨Nat.le_of_not_lt hold, hc⟩
    · rw [hs.owned]
      by_cases hold : c < w.next
      · rw [hs.acts hold, ← h.alive c hold]
        exact ⟨fun hnow => hnow.resolve_right fun hnew => Nat.not_lt.mpr hnew.1 hold, Or.inl⟩
      · exact iff_of_true (Or.inr ⟨Nat.le_of_not_lt hold, hc⟩)
          (hs.fresh c (Nat.le_of_not_lt hold) hc).alive

theorem nodeOwned_run {es : List NodeEvent} (hv : (nodeSystem uv).Valid NodeWorld.init es) :
    NodeOwned uv es ((nodeSystem uv).run NodeWorld.init es) := by
  refine System.run_invariant_recorded (P := fun _ _ => True) (I := NodeOwned uv)
    (fun es e h ha _ => h.step ha) ⟨fun c hc => ?_, fun c => ?_, fun c hc => ?_⟩ hv
    ((nodeSystem uv).along_of_forall (fun _ _ => trivial) _ _)
  · exact absurd hc (Nat.not_lt_zero c)
  · exact iff_of_true (fun hc => absurd hc (Nat.not_lt_zero c)) trivial
  · exact absurd hc (Nat.not_lt_zero c)

end

/-! ## The server -/

theorem ServerApp.owners_pos {w : World ServerApp} {c : ClientId} :
    0 < owners w c ↔ c ∈ w.app.held := List.count_pos_iff

namespace Client

theorem Idle.calm {k k' : Client} (h : k.Idle k') : k.Calm k' := by
  obtain ⟨l, hl, hall⟩ := h.acts
  exact ⟨h.kind, h.myPeerAddr, h.attached, l, hl, fun hm => by cases hall _ hm⟩

theorem Sends.calm {m : Message} {k k' : Client} (h : k.Sends m k') : k.Calm k' := by
  obtain ⟨l, hl, hall⟩ := h.acts
  refine ⟨h.kind, h.myPeerAddr, h.attached, .sendMessage m :: l, hl, fun hm => ?_⟩
  rcases List.mem_cons.mp hm with hm | hm
  · cases hm
  · rcases hall _ hm with hidle | ⟨stream, hw⟩
    · cases hidle
    · cases hw

/-- A callback of a connection destroys nobody. -/
theorem calm_serve (uv : Uv) (c : ClientId) (name : Str) (cb : Callback) (k : Client) :
    k.Calm (k.serve uv c name cb) := by
  refine serve_preserves uv c name (J := k.Calm) (fun hi h => h.trans hi.calm)
    (fun _ h => h.trans ⟨rfl, rfl, id, [], (List.append_nil _).symm, by simp⟩) cb
    (fun {k'} m _ h => ?_) (.refl k)
  have hover : k'.Calm (k'.handOver m) := (Calm.setState .received _).trans (.log (by simp) _)
  apply (h.trans hover).trans
  rcases ServerApp.react_cases uv c name m (k'.handOver m) with hi | ⟨m', hs⟩
  · exact hi.calm
  · exact hs.calm

theorem acts_retire (held : Bool) (k : Client) : (k.retire held).acts = k.acts ++
    ([.connectionClosed] ++ (if held then [.destructor] else []) ++
      [.deleteHandle, .state .closed]) := by
  cases held <;> simp [retire, setState, log]

end Client

/-- A server and the events that led to it. -/
structure ServerOwned (uv : Uv) (es : List ServerEvent) (s : ServerRun) : Prop where
  sane : ServerSane s.world
  owned : ∀ c, (c < s.world.next → 0 < ServerApp.owners s.world c) ↔
    (serverSystem uv).Along (ServerKeeps uv c) ServerRun.init es
  alive : ∀ c < s.world.next,
    0 < ServerApp.owners s.world c ↔ .destructor ∉ (s.world.clients c).acts

section

variable {uv : Uv}

/-- One event and the owners of one client. -/
theorem serverKeeps_step {s : ServerRun} (h : ServerSane s.world) {e : ServerEvent}
    (ha : (serverSystem uv).allowed s e) (c : ClientId) :
    (c < ((serverSystem uv).step s e).world.next →
        0 < ServerApp.owners ((serverSystem uv).step s e).world c) ↔
      (c < s.world.next → 0 < ServerApp.owners s.world c) ∧ ServerKeeps uv c s e := by
  have hm := serverStep_move h ha
  change ServerMove uv s ((serverSystem uv).step s e).world e at hm
  rw [ServerApp.owners_pos, ServerApp.owners_pos]
  -- an event that leaves the store alone
  have hsame : ∀ {w' : World ServerApp} {P : Prop}, w'.app.myClients = s.world.app.myClients →
      w'.next = s.world.next → P →
      ((c < w'.next → c ∈ w'.app.held) ↔ (c < s.world.next → c ∈ s.world.app.held) ∧ P) := by
    intro w' P hstore hnext hp
    rw [ServerApp.held, hstore, hnext]
    exact (and_iff_left hp).symm
  cases e with
  | newConnection status acceptRes =>
    show (c < (onNewConnection uv status acceptRes s.world).next →
      c ∈ (onNewConnection uv status acceptRes s.world).app.held) ↔ _
    by_cases hs : status < 0
    · rw [onNewConnection, if_pos hs]
      exact hsame rfl rfl fun hs' => absurd hs (not_lt.mpr hs')
    · by_cases hr : acceptRes < 0
      · rw [onNewConnection, if_neg hs, if_pos hr]
        exact hsame rfl rfl fun _ hr' => absurd hr (not_lt.mpr hr')
      · obtain ⟨-, hentries, hnext, -⟩ := onNewConnection_accepted uv h.toServerStore hs hr
        rw [ServerApp.held_accepted h.toServerStore hentries, hnext]
        constructor
        · intro hheld
          have hnow : ∀ hc : c < s.world.next, c ∈ s.world.app.held ∧ _ := fun hc =>
            (hheld (Nat.lt_succ_of_lt hc)).resolve_left (Nat.ne_of_lt hc)
          exact ⟨fun hc => (hnow hc).1, fun _ _ hc => (hnow hc).2⟩
        · rintro ⟨hheld, hkeeps⟩ hc
          rcases Nat.lt_succ_iff_lt_or_eq.mp hc with hold | hself
          · exact Or.inr ⟨hheld hold, hkeeps (not_lt.mp hs) (not_lt.mp hr) hold⟩
          · exact Or.inl hself
  | client d cb =>
    generalize (serverSystem uv).step s (.client d cb) = s' at hm ⊢
    cases hm with
    | aside hevent => exact absurd rfl (hevent d cb)
    | served hopen _ _ _ happ hnext =>
      refine hsame (congrArg ServerApp.myClients happ) hnext ?_
      cases cb with
      | closed => exact absurd rfl hopen
      | _ => trivial
    | closed hd _ _ hentries hnext =>
      rw [ServerApp.held_closed hentries, hnext]
      constructor
      · intro hheld
        refine ⟨fun hc => (hheld hc).1, ?_⟩
        rintro rfl
        exact (hheld hd).2 rfl
      · rintro ⟨hheld, hkeeps⟩ hc
        exact ⟨hheld hc, Ne.symm hkeeps⟩
  | _ =>
    cases hm with
    | aside _ _ hstore hnext => exact hsame hstore hnext trivial

/-- A client that has been destroyed has no owner, and one that has none has been destroyed. -/
theorem serverAlive_step {s : ServerRun} (h : ServerSane s.world)
    (halive : ∀ c < s.world.next, c ∈ s.world.app.held ↔ .destructor ∉ (s.world.clients c).acts)
    {e : ServerEvent} (ha : (serverSystem uv).allowed s e) (c : ClientId)
    (hc : c < ((serverSystem uv).step s e).world.next) :
    c ∈ ((serverSystem uv).step s e).world.app.held ↔
      .destructor ∉ (((serverSystem uv).step s e).world.clients c).acts := by
  have hm := serverStep_move h ha
  change ServerMove uv s ((serverSystem uv).step s e).world e at hm
  generalize (serverSystem uv).step s e = s' at hm hc ⊢
  have hcalm : ∀ {k k' : Client}, k.Calm k' → (.destructor ∉ k'.acts ↔ .destructor ∉ k.acts) := by
    intro k k' hcalm
    obtain ⟨l, hl, hnone⟩ := hcalm.acts
    rw [hl, List.mem_append]
    exact not_congr ⟨fun hm => hm.resolve_right hnone, Or.inl⟩
  cases hm with
  | aside _ hclients hstore hnext =>
    rw [ServerApp.held, hstore, hclients]
    exact halive c (hnext ▸ hc)
  | accepted hclients hentries hnext =>
    rw [ServerApp.held_accepted h.toServerStore hentries, hclients]
    by_cases hself : c = s.world.next
    · rw [if_pos hself]
      refine iff_of_true (Or.inl hself) ((hcalm (ServerApp.idle_newcomer uv _).calm).mpr ?_)
      simp [ServerApp.newcomer, NetClientIn.new, Client.setState, Client.setUvStream]
    · rw [hnext] at hc
      have hold := Nat.lt_of_le_of_ne (Nat.lt_succ_iff.mp hc) hself
      have hentry : ((ServerApp.newcomer uv s.world.next).myPeerAddr, c) ∈
          s.world.app.myClients.entries ↔ c ∈ s.world.app.held ∧
            (ServerApp.newcomer uv s.world.next).myPeerAddr = (s.world.clients c).myPeerAddr := by
        refine ⟨fun he => ⟨ServerApp.mem_held.mpr ⟨_, he⟩, h.addr _ he⟩, ?_⟩
        rintro ⟨hheld, heq⟩
        obtain ⟨addr, he⟩ := ServerApp.mem_held.mp hheld
        rw [heq, ← h.addr _ he]
        exact he
      rw [if_neg hself, if_congr hentry rfl rfl]
      by_cases hheld : c ∈ s.world.app.held
      · have hnone := (halive c hold).mp hheld
        by_cases haddr : (ServerApp.newcomer uv s.world.next).myPeerAddr =
            (s.world.clients c).myPeerAddr
        · simp [hself, haddr, hheld, Client.log]
        · simp [haddr, hheld, hnone]
      · have hgone := not_not.mp fun hnone => hheld ((halive c hold).mpr hnone)
        simp [hself, hheld, hgone]
  | @served d cb _ _ _ hclients happ hnext =>
    rw [happ, hclients, halive c (hnext ▸ hc)]
    split
    · rename_i hd
      rw [hd]
      exact (hcalm (Client.calm_serve uv d _ cb _)).symm
    · exact Iff.rfl
  | @closed d _ _ hclients hentries hnext =>
    rw [ServerApp.held_closed hentries, hclients, halive c (hnext ▸ hc)]
    split
    · rename_i hd
      subst hd
      rw [Client.acts_retire]
      by_cases hheld : c ∈ s.world.app.held
      · simp [hheld]
      · have hgone := not_not.mp fun hnone => hheld ((halive c (hnext ▸ hc)).mpr hnone)
        simp [hgone]
    · rename_i hd
      exact and_iff_left hd

theorem serverOwned_run {es : List ServerEvent}
    (hv : (serverSystem uv).Valid ServerRun.init es) :
    ServerOwned uv es ((serverSystem uv).run ServerRun.init es) := by
  refine System.run_invariant_recorded (P := fun _ _ => True) (I := ServerOwned uv)
    (fun es e h ha _ => ⟨serverSane_step _ e h.sane ha, fun c => ?_, fun c hc => ?_⟩)
    ⟨serverSane_init, fun c => ?_, fun c hc => ?_⟩ hv
    ((serverSystem uv).along_of_forall (fun _ _ => trivial) _ _)
  · rw [(serverSystem uv).along_snoc, ← h.owned, serverKeeps_step h.sane ha]
  · rw [ServerApp.owners_pos]
    refine serverAlive_step h.sane (fun d hd => ?_) ha c hc
    rw [← ServerApp.owners_pos]
    exact h.alive d hd
  · exact iff_of_true (fun hc => absurd hc (Nat.not_lt_zero c)) trivial
  · exact absurd hc (Nat.not_lt_zero c)

end

/-! ## The order -/

section

variable {uv : Uv} {c : ClientId} {cb : Callback}

/-- A callback of a node. -/
theorem node_inOrder {es : List NodeEvent} (hv : (nodeSystem uv).Valid NodeWorld.init es)
    (ha : (nodeSystem uv).allowed ((nodeSystem uv).run NodeWorld.init es) (.client c cb)) :
    InOrder NodeApp.owners c ((nodeSystem uv).run NodeWorld.init es)
        ((nodeSystem uv).step ((nodeSystem uv).run NodeWorld.init es) (.client c cb)) ↔
      cb ≠ .closed ∧ (nodeSystem uv).Along (NodeKeeps c) NodeWorld.init es := by
  have h := nodeOwned_run hv
  rw [← h.owned]
  generalize (nodeSystem uv).run NodeWorld.init es = w at h ha ⊢
  have hc : c < w.next := ha.2.1
  constructor
  · intro hin
    refine ⟨?_, fun _ => hin.owned⟩
    rintro rfl
    have hs := closes_step uv c w
    refine not_inOrder (l := [.connectionClosed]) (s := .closed) ?_ hin
    show ((nodeStep uv w (.client c .closed)).clients c).acts = _
    rw [hs.self]
    simp [Client.setState, Client.log, Client.acts_leave, Client.reported, hin.owned]
  · rintro ⟨hopen, howned⟩
    have hs := grows_step h.attached ha fun d he => hopen (NodeEvent.client.inj he).2
    exact .of_calm (howned hc) (hs.calm c hc)

/-- A callback of a server. -/
theorem server_inOrder {es : List ServerEvent} (hv : (serverSystem uv).Valid ServerRun.init es)
    (ha : (serverSystem uv).allowed ((serverSystem uv).run ServerRun.init es) (.client c cb)) :
    InOrder ServerApp.owners c ((serverSystem uv).run ServerRun.init es).world
        ((serverSystem uv).step ((serverSystem uv).run ServerRun.init es) (.client c cb)).world ↔
      cb ≠ .closed ∧ (serverSystem uv).Along (ServerKeeps uv c) ServerRun.init es := by
  have h := serverOwned_run hv
  rw [← h.owned]
  generalize (serverSystem uv).run ServerRun.init es = s at h ha ⊢
  have hm := serverStep_move h.sane ha
  change ServerMove uv s ((serverSystem uv).step s (.client c cb)).world _ at hm
  have hc : c < s.world.next := ha.2.2.1
  constructor
  · intro hin
    refine ⟨?_, fun _ => hin.owned⟩
    rintro rfl
    cases hm with
    | aside hevent => exact absurd rfl (hevent c .closed)
    | served hopen => exact absurd rfl hopen
    | closed _ _ hclients =>
      refine not_inOrder (l := [.connectionClosed]) (s := .closed) ?_ hin
      have hheld := ServerApp.owners_pos.mp hin.owned
      rw [hclients, if_pos rfl, Client.acts_retire]
      simp [hheld]
  · rintro ⟨hopen, howned⟩
    refine .of_calm (howned hc) ?_
    cases hm with
    | aside hevent => exact absurd rfl (hevent c cb)
    | served _ _ _ hclients =>
      rw [hclients, if_pos rfl]
      exact Client.calm_serve uv c _ cb _
    | closed => exact absurd rfl hopen

end

/-- **Ownership order**, in every run of a node and of a server: a callback touches its client
    only while the client has an owner, exactly if it is not the close callback and no earlier
    event took the client's entry out of the store. -/
theorem ownership_order (uv : Uv) (c : ClientId) (cb : Callback) :
    (∀ es, (nodeSystem uv).Valid NodeWorld.init es →
      (nodeSystem uv).allowed ((nodeSystem uv).run NodeWorld.init es) (.client c cb) →
      (InOrder NodeApp.owners c ((nodeSystem uv).run NodeWorld.init es)
          ((nodeSystem uv).step ((nodeSystem uv).run NodeWorld.init es) (.client c cb)) ↔
        cb ≠ .closed ∧ (nodeSystem uv).Along (NodeKeeps c) NodeWorld.init es)) ∧
    ∀ es, (serverSystem uv).Valid ServerRun.init es →
      (serverSystem uv).allowed ((serverSystem uv).run ServerRun.init es) (.client c cb) →
      (InOrder ServerApp.owners c ((serverSystem uv).run ServerRun.init es).world
          ((serverSystem uv).step ((serverSystem uv).run ServerRun.init es)
            (.client c cb)).world ↔
        cb ≠ .closed ∧ (serverSystem uv).Along (ServerKeeps uv c) ServerRun.init es) :=
  ⟨fun _ hv ha => node_inOrder hv ha, fun _ hv ha => server_inOrder hv ha⟩

/-- An accepted connection of a node, and one of a server, each read from for the first time. -/
theorem ownership_order_read :
    InOrder NodeApp.owners 1 ((nodeSystem Uv.cooperative).run NodeWorld.init
        [.start { listenPort := 5000, listenPortRange := 1 }, .newConnection 0 0])
      ((nodeSystem Uv.cooperative).step ((nodeSystem Uv.cooperative).run NodeWorld.init
        [.start { listenPort := 5000, listenPortRange := 1 }, .newConnection 0 0])
        (.client 1 (.read 7 (some "PING a\n".toList)))) ∧
    InOrder ServerApp.owners 0 ((serverSystem Uv.cooperative).run ServerRun.init
        [.listen { listenPort := 5000, listenPortRange := 1 }, .startUvLoop,
          .newConnection 0 0]).world
      ((serverSystem Uv.cooperative).step ((serverSystem Uv.cooperative).run ServerRun.init
        [.listen { listenPort := 5000, listenPortRange := 1 }, .startUvLoop, .newConnection 0 0])
        (.client 0 (.read 7 (some "PING a\n".toList)))).world := by
  constructor
  · apply ((ownership_order Uv.cooperative 1 _).1 _ (by decide) (by decide)).mpr
    refine ⟨by simp, ?_, ?_, trivial⟩
    · exact fun _ he => by cases he
    · exact fun _ he => by cases he
  · apply ((ownership_order Uv.cooperative 0 _).2 _ (by decide) (by decide)).mpr
    exact ⟨by simp, trivial, trivial, fun _ _ hc => absurd hc (by decide), trivial⟩

/-- The peer of an accepted connection goes away: `onClose` writes `myState` of an object that the
    node has just destroyed. -/
theorem touched_after_release :
    (nodeSystem Uv.cooperative).Valid NodeWorld.init
      [.start { listenPort := 5000, listenPortRange := 1 }, .newConnection 0 0,
        .client 1 (.read (-4095) none), .client 1 .closed] ∧
    ¬ InOrder NodeApp.owners 1 ((nodeSystem Uv.cooperative).run NodeWorld.init
        [.start { listenPort := 5000, listenPortRange := 1 }, .newConnection 0 0,
          .client 1 (.read (-4095) none)])
      ((nodeSystem Uv.cooperative).step ((nodeSystem Uv.cooperative).run NodeWorld.init
        [.start { listenPort := 5000, listenPortRange := 1 }, .newConnection 0 0,
          .client 1 (.read (-4095) none)]) (.client 1 .closed)) := by
  refine ⟨by decide, not_inOrder (l := [.connectionClosed]) (s := .closed) ?_⟩
  decide

end TcpUv
