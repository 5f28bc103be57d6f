import TcpUv.Proof.NodeRules
import TcpUv.Proof.Conn

/-!
# What happens elsewhere

What the events of other connections do to a given client of a node: nothing, except that the
node may create it, as an outgoing peer or an accepted one, and may destroy it. A property of
worlds that survives this much survives every event that is not a callback of the client
(`Elsewhere.step`). Two kinds of property do: what is true of the client from its creation on
(`Bystander.elsewhere`), and what is true of it now (`elsewhere_now`).
-/

set_option autoImplicit false

namespace TcpUv

open NodeApp

/-- A property of a node that is a matter of the client `c`. -/
structure Elsewhere (uv : Uv) (c : ClientId) (I : NodeWorld → Prop) : Prop where
  still : ∀ {w w' : NodeWorld}, I w → w'.clients = w.clients → w'.next = w.next → I w'
  modify : ∀ {w : NodeWorld} {d : ClientId} (f : Client → Client), c ≠ d → I w → I (w.modify d f)
  connectionClosed : ∀ {w : NodeWorld} (d : ClientId), I w → I (NodeApp.connectionClosed d w)
  tryCandidate : ∀ {w : NodeWorld} (key : Str), I w → I (NodeApp.tryCandidate uv w key)
  /-- a connection is accepted, short of its first read -/
  create : ∀ {w : NodeWorld} (k : Client), c ≠ w.next → I w → I (w.create k)
  newcomer : ∀ {w : NodeWorld} (a : Str), c = w.next → I w →
    I ((w.create (NetClientIn.new a)).modify c
      (Client.read (readAnswer uv c (NetClientIn.new a))))

namespace Elsewhere

variable {uv : Uv} {c d : ClientId} {I : NodeWorld → Prop} (hI : Elsewhere uv c I) {w : NodeWorld}

include hI

theorem tryOutConnections (h : I w) : I (tryOutConnections uv w) :=
  rounds_preserve (fun key _ _ h => hI.tryCandidate key h) h

section

variable (hdc : c ≠ d)

include hdc

/-- The machinery of another connection. -/
theorem robust : Robust d I where
  quiet _ h := hI.modify _ hdc h
  connectionClosed h := hI.connectionClosed d h
  greets _ h := hI.modify _ hdc h

theorem sendMessage (m : Message) (h : I w) : I (sendMessage uv d m w).1 :=
  (hI.robust hdc).sendMessage uv (hI.modify _ hdc h)

/-- A callback of another connection. -/
theorem robustApp : RobustApp uv d I where
  toRobust := hI.robust hdc
  sendOtherPeers h := gossip_preserves (I := I) (fun _ _ _ h => hI.sendMessage hdc _ h) h
  connected h _ := hI.modify _ hdc h
  buffer _ h := hI.modify _ hdc h
  message {_ _ m} _ h :=
    messageReceived_preserves (I := I) (fun h => (hI.robust hdc).close h)
      (fun m h => hI.sendMessage hdc m h) (fun _ h => hI.modify _ hdc h)
      (fun _ _ h => hI.still h rfl rfl) (fun key h => hI.tryCandidate key h) m
      (hI.modify _ hdc h)

end

theorem doListenFrom : ∀ (n : Nat) (port : Int32) {w : NodeWorld}, I w →
    I (doListenFrom uv n port w).1 := by
  intro n
  induction n with
  | zero => intro port w h; exact h
  | succ n ih =>
    intro port w h
    rw [TcpUv.doListenFrom]
    split
    · exact hI.tryOutConnections (hI.still h rfl rfl)
    · exact ih (port + 1) h

theorem onNewConnection (status acceptRes : Int) (h : I w) :
    I (onNewConnection uv status acceptRes w) := by
  unfold TcpUv.onNewConnection
  split
  · exact h
  · split
    · exact h
    · dsimp only
      generalize getRemoteAddress uv (uv.getpeername w.next 1) = a
      by_cases hc : c = w.next
      · -- the connection itself
        subst hc
        have hself := World.clients_create_next w (NetClientIn.new a)
        have hattached : ((NodeApp.inConnectionReceived w.next
            (w.create (NetClientIn.new a))).clients w.next).Attached :=
          (congrArg Client.Attached hself).mpr fun _ => rfl
        have hread := doRead_eq uv hattached
        have hanswer : readAnswer uv w.next ((NodeApp.inConnectionReceived w.next
            (w.create (NetClientIn.new a))).clients w.next) =
            readAnswer uv w.next (NetClientIn.new a) := congrArg (readAnswer uv w.next) hself
        rw [hanswer] at hread
        exact (congrArg I hread).mpr (hI.still (hI.newcomer a rfl h) rfl rfl)
      · exact (hI.robust hc).doRead uv (hI.still (hI.create (NetClientIn.new a) hc h) rfl rfl)

/-- **The rule**: every event that is not a callback of the client itself. -/
theorem step {e : NodeEvent} (he : ∀ cb, e ≠ .client c cb) (h : I w) : I (nodeStep uv w e) := by
  cases e with
  | start params =>
    have hlisten := hI.doListenFrom
      (max (min params.listenPortRange.toInt 10) 1).toNat params.listenPort
      (w := { w with app := w.app.addStartCandidates params.extraPeers }) (hI.still h rfl rfl)
    show I (NodeApp.start uv params w)
    unfold NodeApp.start startWithListen
    dsimp only
    split
    · exact hlisten
    · exact hI.still hlisten rfl rfl
  | listenStarted port => exact hI.tryOutConnections (hI.still h rfl rfl)
  | newConnection status acceptRes => exact hI.onNewConnection status acceptRes h
  | client d cb =>
    have hdc : c ≠ d := fun hdc => he cb (by rw [hdc])
    exact hI.still ((hI.robustApp hdc).callback cb h) (Outcome.clients_settle _)
      (Outcome.next_settle _)

end Elsewhere

/-! ## Properties of the client -/

/-- Being destroyed along with others of an address. -/
theorem clients_closed_preserve {J : Client → Prop} (hdestroy : ∀ {k : Client}, J k → J (destroy k))
    (d : ClientId) {c : ClientId} {w : NodeWorld} (h : J (w.clients c)) :
    J ((NodeApp.connectionClosed d w).clients c) := by
  have hfold : ∀ (ds : List ClientId) {w : NodeWorld}, J (w.clients c) →
      J ((ds.foldl (fun w d => w.modify d NodeApp.destroy) w).clients c) := by
    intro ds
    induction ds with
    | nil => intro w h; exact h
    | cons e ds ih =>
      intro w h
      apply ih
      rw [World.clients_modify]
      split
      · exact hdestroy h
      · exact h
  exact hfold _ h

/-- A property of a client that holds of it when it is created, and goes on to hold when it is
    destroyed. -/
structure Bystander (uv : Uv) (c : ClientId) (J : Client → Prop) : Prop where
  dialled : ∀ {w : NodeWorld} {host : Str} {port : Int32},
    w.clients c = PeerClientOut.new host port → J ((connect uv c w).1.clients c)
  accepted : ∀ a : Str, J ((NetClientIn.new a).read (readAnswer uv c (NetClientIn.new a)))
  destroy : ∀ {k : Client}, J k → J (NodeApp.destroy k)

/-- The client, once it exists, has the property. -/
def AtClient (J : Client → Prop) (c : ClientId) (w : NodeWorld) : Prop :=
  c < w.next → J (w.clients c)

/-- **From its creation on.** -/
theorem Bystander.elsewhere {uv : Uv} {c : ClientId} {J : Client → Prop}
    (hJ : Bystander uv c J) : Elsewhere uv c (AtClient J c) where
  still h hclients hnext hc := by
    rw [hnext] at hc
    rw [hclients]
    exact h hc
  modify f hdc h hc := by
    rw [World.clients_modify_ne _ f hdc]
    exact h hc
  connectionClosed d h hc := by
    rw [next_connectionClosed] at hc
    exact clients_closed_preserve (J := J) hJ.destroy d (h hc)
  tryCandidate {w} key h hc' := by
    by_cases hc : c < w.next
    · rw [clients_tryCandidate uv hc]
      exact h hc
    · obtain ⟨i, w', hnew, hclient⟩ := tryCandidate_new uv hc hc'
      rw [hclient]
      exact hJ.dialled hnew
  create {w} k hne h hc := by
    rw [World.clients_create_ne _ _ hne]
    exact h (Nat.lt_of_le_of_ne (Nat.lt_succ_iff.mp hc) hne)
  newcomer {w} a hc h _ := by
    subst hc
    rw [World.clients_modify_self, World.clients_create_next]
    exact hJ.accepted a

/-- **As it is now**: the client exists, and has the property. -/
theorem elsewhere_now {uv : Uv} {c : ClientId} {J : Client → Prop}
    (hdestroy : ∀ {k : Client}, J k → J (NodeApp.destroy k)) :
    Elsewhere uv c (fun w => c < w.next ∧ J (w.clients c)) where
  still h hclients hnext := by
    rw [hclients, hnext]
    exact h
  modify f hdc h := ⟨h.1, by rw [World.clients_modify_ne _ f hdc]; exact h.2⟩
  connectionClosed d h :=
    ⟨by rw [next_connectionClosed]; exact h.1, clients_closed_preserve (J := J) hdestroy d h.2⟩
  tryCandidate {w} key h :=
    ⟨Nat.lt_of_lt_of_le h.1 (next_tryCandidate uv w key),
      by rw [clients_tryCandidate uv h.1]; exact h.2⟩
  create k hne h :=
    ⟨Nat.lt_succ_of_lt h.1, by rw [World.clients_create_ne _ _ hne]; exact h.2⟩
  newcomer a hc h := absurd hc (Nat.ne_of_lt h.1)

end TcpUv
