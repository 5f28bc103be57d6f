import TcpUv.Proof.ClientRules

/-!
# The client program, taken apart

The connections of the client program share a loop and nothing else. One connection is a machine of
its own (`connSystem`), and a run of the program is, connection by connection, a run of that
machine on the connection's own callbacks (`client_apart`). So it makes no difference how the
callbacks of different connections interleave (`client_interleaving`).
-/

set_option autoImplicit false

namespace TcpUv

open Lib

/-- One connection of the client program. -/
def connSystem (uv : Uv) (c : ClientId) : System Client Callback where
  step k cb := k.moved uv c cb
  allowed k cb := cb.allowed k

/-- A connection as `newClient` leaves it. -/
def ClientApp.opened (uv : Uv) (c : ClientId) (host : Str) (port pingToSend : Int32) : Client :=
  (NetClientOut.new host port pingToSend).dial
    (uv.tcpConnect c (NetClientOut.new host port pingToSend).dialled)

namespace ClientEvent

/-- The connection an event opens. -/
def opens (uv : Uv) (c : ClientId) : ClientEvent → Option Client
  | .newClient host port pingToSend => some (ClientApp.opened uv c host port pingToSend)
  | .client _ _ => none

/-- Whether it opens one. -/
def isNew : ClientEvent → Bool
  | .newClient _ _ _ => true
  | .client _ _ => false

/-- The callback an event delivers to the connection. -/
def own (c : ClientId) : ClientEvent → Option Callback
  | .newClient _ _ _ => none
  | .client d cb => if d = c then some cb else none

theorem own_self (c : ClientId) (cb : Callback) : (client c cb).own c = some cb := if_pos rfl

theorem own_ne {c d : ClientId} (h : c ≠ d) (cb : Callback) : (client d cb).own c = none :=
  if_neg (Ne.symm h)

end ClientEvent

/-! ## One connection -/

namespace Client.Scripted

variable {k k' : Client} {uv : Uv} {c : ClientId}

theorem idle (hi : k.Idle k') (h : k.Scripted) : k'.Scripted :=
  ⟨hi.kind.trans h.kind, hi.attached h.attached, hi.timerActive.trans h.timerActive⟩

theorem sends {m : Message} (hs : k.Sends m k') (h : k.Scripted) : k'.Scripted :=
  ⟨hs.kind.trans h.kind, hs.attached h.attached, hs.timerActive.trans h.timerActive⟩

theorem assertWrite (h : k.Scripted) : k.assertWrite.Scripted := h.idle (Idle.assert _ _ k)

theorem proceed (name : Str) (h : k.Scripted) : (k.proceed uv c name).Scripted := by
  have hcount : ∀ n, ({ k with mySendCounter := n } : Client).Scripted := fun _ =>
    ⟨h.kind, h.attached, h.timerActive⟩
  unfold Client.proceed
  rw [h.kind]
  dsimp only
  unfold advance
  split
  · exact (hcount 0).sends (sends_send _ _ _)
  · exact (hcount _).idle (.read _ _)
  · exact h.idle (.read _ _)
  · exact h.idle (.read _ _)
  · split
    · exact h.idle (.shut k)
    · split
      · exact h.sends (sends_send _ _ k)
      · exact h
  · exact h.idle (.log rfl k)

/-- **A callback leaves the connection one of the program's.** -/
theorem moved (cb : Callback) (h : k.Scripted) : (k.moved uv c cb).Scripted := by
  have htcp : ∀ t : UvTcp, t.closing = k.tcp.closing → ({ k with tcp := t } : Client).Scripted :=
    fun _ ht => h.idle (.bookkeeping ht)
  cases cb with
  | connected status =>
    unfold Client.moved move
    dsimp only
    split
    · exact htcp _ rfl
    · refine proceed textNone ?_
      obtain ⟨canon, heq⟩ := establish_eq uv c
        ({ k with tcp := { k.tcp with connecting := false } } : Client)
      rw [heq]
      exact ⟨h.kind, h.attached, h.timerActive⟩
  | read nread buf =>
    unfold Client.moved move
    dsimp only
    split
    · exact h.idle (.shut k)
    · cases buf with
      | none => exact h.proceed textNone
      | some base =>
        have hdigest : (k.readIn (fun _ k => k) nread base).Scripted :=
          digest_preserves (J := Scripted) (fun _ h => ⟨h.kind, h.attached, h.timerActive⟩) _
            (fun _ _ h => ⟨h.kind, h.attached, h.timerActive⟩)
            ⟨h.kind, h.attached, h.timerActive⟩
        dsimp only
        split
        · exact hdigest
        · exact hdigest.proceed textNone
  | wrote status =>
    unfold Client.moved move
    dsimp only
    have hassert := (htcp { k.tcp with writes := k.tcp.writes - 1 } rfl).assertWrite
    split
    · exact hassert.idle (.shut _)
    · exact hassert.proceed textNone
  | closed => exact ⟨h.kind, h.attached, h.timerActive⟩
  | timer => exact h

theorem opened (uv : Uv) (c : ClientId) (host : Str) (port pingToSend : Int32) :
    (ClientApp.opened uv c host port pingToSend).Scripted := by
  unfold ClientApp.opened
  generalize uv.tcpConnect c _ = res
  obtain ⟨b, hb⟩ := (NetClientOut.new host port pingToSend).dial_eq res
  rw [hb]
  exact ⟨rfl, fun _ => rfl, rfl⟩

end Client.Scripted

/-! ## The run -/

/-- Taken apart: each connection is where its own callbacks have brought it. -/
structure Apart (uv : Uv) (es : List ClientEvent) (w : World ClientApp) : Prop where
  count : w.next = (es.filter ClientEvent.isNew).length
  unborn : ∀ c, ¬ c < w.next → es.filterMap (ClientEvent.own c) = []
  scripted : ∀ c < w.next, (w.clients c).Scripted
  conns : ∀ c < w.next, ∃ k₀,
    (es.filter ClientEvent.isNew)[c]?.bind (ClientEvent.opens uv c) = some k₀ ∧
      (connSystem uv c).Valid k₀ (es.filterMap (ClientEvent.own c)) ∧
      w.clients c = (connSystem uv c).run k₀ (es.filterMap (ClientEvent.own c))

namespace Apart

variable {uv : Uv} {es : List ClientEvent} {w : World ClientApp}

theorem newClient (h : Apart uv es w) (host : Str) (port pingToSend : Int32) :
    Apart uv (es ++ [ClientEvent.newClient host port pingToSend])
      (ClientApp.newClient uv host port pingToSend w) := by
  obtain ⟨-, hold, hnext⟩ := newClient_spec uv host port pingToSend w
  have hnew : (ClientApp.newClient uv host port pingToSend w).clients w.next =
      ClientApp.opened uv w.next host port pingToSend := by
    have hguard : ¬ ((w.create (NetClientOut.new host port pingToSend)).clients w.next).Refuses :=
      Client.not_refuses_of_state .notConnected (by rw [World.clients_create_next]; rfl)
        (by decide)
    unfold ClientApp.newClient
    rw [connect_dial uv hguard, World.clients_modify_self, World.clients_create_next]
    rfl
  have hown : ∀ c,
      (es ++ [ClientEvent.newClient host port pingToSend]).filterMap (ClientEvent.own c) =
        es.filterMap (ClientEvent.own c) := fun c => by
    rw [List.filterMap_append]
    exact List.append_nil _
  have hfilter : (es ++ [ClientEvent.newClient host port pingToSend]).filter ClientEvent.isNew =
      es.filter ClientEvent.isNew ++ [ClientEvent.newClient host port pingToSend] := by
    rw [List.filter_append]
    rfl
  -- the newcomer has had no callback yet, so its run is the empty one
  refine ⟨?_, fun c hc => ?_, fun c hc => ?_, fun c hc => ?_⟩
  · rw [hnext, hfilter, h.count, List.length_append]
    rfl
  · rw [hown]
    rw [hnext] at hc
    exact h.unborn c fun hlt => hc (Nat.lt_succ_of_lt hlt)
  · rw [hnext] at hc
    by_cases hself : c = w.next
    · rw [hself, hnew]
      exact .opened uv w.next host port pingToSend
    · rw [hold c hself]
      exact h.scripted c (Nat.lt_of_le_of_ne (Nat.lt_succ_iff.mp hc) hself)
  · rw [hown, hfilter]
    rw [hnext] at hc
    by_cases hself : c = w.next
    · subst hself
      refine ⟨ClientApp.opened uv w.next host port pingToSend, ?_, ?_, ?_⟩
      · rw [h.count, List.getElem?_concat_length]
        rfl
      · rw [h.unborn _ (Nat.lt_irrefl _)]
        trivial
      · rw [h.unborn _ (Nat.lt_irrefl _), hnew]
        rfl
    · have hlt := Nat.lt_of_le_of_ne (Nat.lt_succ_iff.mp hc) hself
      rw [hold c hself, List.getElem?_append_left (h.count ▸ hlt)]
      exact h.conns c hlt

theorem client (h : Apart uv es w) {d : ClientId} {cb : Callback} (hd : d < w.next)
    (hcb : cb.allowed (w.clients d)) :
    Apart uv (es ++ [ClientEvent.client d cb]) (clientStep uv w (.client d cb)) := by
  obtain ⟨hself, hnext, -⟩ := clientStep_spec uv (h.scripted d hd) hcb
  have hother : ∀ c ≠ d, (clientStep uv w (.client d cb)).clients c = w.clients c := fun c hc =>
    (clientStep_elsewhere uv hc cb).1
  have hfilter : (es ++ [ClientEvent.client d cb]).filter ClientEvent.isNew =
      es.filter ClientEvent.isNew := by
    rw [List.filter_append]
    exact List.append_nil _
  have hown : (es ++ [ClientEvent.client d cb]).filterMap (ClientEvent.own d) =
      es.filterMap (ClientEvent.own d) ++ [cb] := by
    rw [List.filterMap_append, List.filterMap_cons_some (ClientEvent.own_self d cb)]
    rfl
  have hrest : ∀ c ≠ d, (es ++ [ClientEvent.client d cb]).filterMap (ClientEvent.own c) =
      es.filterMap (ClientEvent.own c) := fun c hc => by
    rw [List.filterMap_append, List.filterMap_cons_none (ClientEvent.own_ne hc cb)]
    exact List.append_nil _
  -- one connection moves by its callback, the others have neither moved nor had one
  refine ⟨?_, fun c hc => ?_, fun c hc => ?_, fun c hc => ?_⟩
  · rw [hnext, hfilter, h.count]
  · rw [hnext] at hc
    rw [hrest c fun hcd => hc (hcd ▸ hd)]
    exact h.unborn c hc
  · rw [hnext] at hc
    by_cases hcd : c = d
    · subst hcd
      rw [hself]
      exact (h.scripted c hc).moved cb
    · rw [hother c hcd]
      exact h.scripted c hc
  · rw [hnext] at hc
    rw [hfilter]
    obtain ⟨k₀, hopened, hvalid, hrun⟩ := h.conns c hc
    refine ⟨k₀, hopened, ?_⟩
    by_cases hcd : c = d
    · subst hcd
      rw [hown, System.valid_append, System.run_append, ← hrun]
      exact ⟨⟨hvalid, hcb, trivial⟩, hself⟩
    · rw [hrest c hcd, hother c hcd]
      exact ⟨hvalid, hrun⟩

theorem run (hv : (clientSystem uv).Valid (World.init {}) es) :
    Apart uv es ((clientSystem uv).run (World.init {}) es) := by
  refine System.run_invariant_recorded (P := fun _ _ => True) (I := Apart uv)
    (fun es e h ha _ => ?_) ?_ hv (System.along_of_forall _ (fun _ _ => trivial) _ _)
  · cases e with
    | newClient host port pingToSend => exact h.newClient host port pingToSend
    | client d cb => exact h.client ha.2.1 ha.2.2
  · exact ⟨rfl, fun _ _ => rfl, fun c hc => absurd hc (Nat.not_lt_zero c),
      fun c hc => absurd hc (Nat.not_lt_zero c)⟩

end Apart

/-- Two connections, established one after the other … -/
def oneThenOther : List ClientEvent :=
  [.newClient textLocalhost 5000 1, .newClient textLocalhost 5001 2, .client 0 (.connected 0),
    .client 1 (.connected 0), .client 0 (.wrote 0)]

/-- … and in another order. -/
def otherThenOne : List ClientEvent :=
  [.newClient textLocalhost 5000 1, .newClient textLocalhost 5001 2, .client 1 (.connected 0),
    .client 0 (.connected 0), .client 0 (.wrote 0)]

theorem valid_oneThenOther :
    (clientSystem .cooperative).Valid (World.init {}) oneThenOther := by decide

theorem valid_otherThenOne :
    (clientSystem .cooperative).Valid (World.init {}) otherThenOne := by decide

/-- **A run of the client program is a run of each of its connections**, on the connection's own
    callbacks. -/
theorem client_apart (uv : Uv) {es : List ClientEvent}
    (hv : (clientSystem uv).Valid (World.init {}) es) :
    let w := (clientSystem uv).run (World.init {}) es
    w.next = (es.filter ClientEvent.isNew).length ∧ ∀ c < w.next, ∃ k₀,
      (es.filter ClientEvent.isNew)[c]?.bind (ClientEvent.opens uv c) = some k₀ ∧
        (connSystem uv c).Valid k₀ (es.filterMap (ClientEvent.own c)) ∧
        w.clients c = (connSystem uv c).run k₀ (es.filterMap (ClientEvent.own c)) :=
  ⟨(Apart.run hv).count, (Apart.run hv).conns⟩

theorem client_apart_two :
    ((clientSystem .cooperative).run (World.init {}) oneThenOther).next = 2 ∧ ∀ c < 2, ∃ k₀,
      (oneThenOther.filter ClientEvent.isNew)[c]?.bind (ClientEvent.opens .cooperative c) =
          some k₀ ∧
        (connSystem .cooperative c).Valid k₀ (oneThenOther.filterMap (ClientEvent.own c)) ∧
        ((clientSystem .cooperative).run (World.init {}) oneThenOther).clients c =
          (connSystem .cooperative c).run k₀ (oneThenOther.filterMap (ClientEvent.own c)) :=
  client_apart .cooperative valid_oneThenOther

/-- **It makes no difference how the callbacks of different connections interleave.** -/
theorem client_interleaving (uv : Uv) {es es' : List ClientEvent}
    (hv : (clientSystem uv).Valid (World.init {}) es)
    (hv' : (clientSystem uv).Valid (World.init {}) es')
    (hnew : es.filter ClientEvent.isNew = es'.filter ClientEvent.isNew)
    (hown : ∀ c, es.filterMap (ClientEvent.own c) = es'.filterMap (ClientEvent.own c)) :
    let w := (clientSystem uv).run (World.init {}) es
    let w' := (clientSystem uv).run (World.init {}) es'
    w.next = w'.next ∧ ∀ c < w.next, w.clients c = w'.clients c := by
  intro w w'
  have hapart := Apart.run hv
  have hapart' := Apart.run hv'
  have hnext : w.next = w'.next := by
    rw [show w.next = _ from hapart.count, show w'.next = _ from hapart'.count, hnew]
  refine ⟨hnext, fun c hc => ?_⟩
  obtain ⟨k, hk, -, hrun⟩ := hapart.conns c hc
  obtain ⟨k', hk', -, hrun'⟩ := hapart'.conns c (hnext ▸ hc)
  rw [hnew, hk', Option.some.injEq] at hk
  rw [hrun, hrun', hown, hk]

theorem client_interleaving_two :
    ((clientSystem .cooperative).run (World.init {}) oneThenOther).next =
        ((clientSystem .cooperative).run (World.init {}) otherThenOne).next ∧ ∀ c < 2,
      ((clientSystem .cooperative).run (World.init {}) oneThenOther).clients c =
        ((clientSystem .cooperative).run (World.init {}) otherThenOne).clients c :=
  client_interleaving .cooperative valid_oneThenOther valid_otherThenOne rfl fun c => by
    rcases c with _ | _ | c
    · rfl
    · rfl
    · simp [oneThenOther, otherThenOne, List.filterMap_cons, ClientEvent.own]

end TcpUv
