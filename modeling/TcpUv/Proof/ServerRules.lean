import TcpUv.App
import TcpUv.Proof.Local

/-!
# The server, event by event

What one event does to the server, said once: what it makes of every connection
(`clients_serverStep`), of the store (`store_serverStep`) and of the name. A message is
answered on the connection it came on and nowhere else (`takesAs_react`), so a callback is
a function of its connection; the store is reached by accepting and closing alone.
-/

set_option autoImplicit false

namespace TcpUv

open Lib

/-- What the server has an answer to: a handshake of its version, a ping. -/
def Message.IsRequest : Message → Prop
  | .handshake myVersion _ _ => myVersion = textV01
  | .ping _ => True
  | _ => False

namespace ServerApp

/-- What the server does about a message, on the connection it came on. -/
def react (uv : Uv) (c : ClientId) (name : Str) (m : Message) (k : Client) : Client :=
  match m with
  | .handshake myVersion _ _ =>
      if myVersion ≠ textV01 then k.shut
      else k.sendNow uv c (.handshakeResponse textV01 name k.myPeerAddr)
  | .ping text => k.sendNow uv c (.pingResponse (textRespFrom ++ name ++ textTo ++ text))
  | _ => k.log (.assertFailed .unhandledMessage)

section

variable (uv : Uv) (c : ClientId)

theorem takesAs_react (a : ServerApp) (m : Message) : TakesAs uv c a (react uv c a.myName) m := by
  rintro w rfl ha
  show ServerApp.messageReceived uv c m w = _
  cases m with
  | handshake myVersion yourAddr myAddr =>
    unfold ServerApp.messageReceived
    dsimp only
    split
    · rename_i hv
      rw [close_eq ha]
      exact congrArg Outcome.returns (modify_congr w c (by rw [react, if_pos hv]))
    · rename_i hv
      rw [sendMessage_now uv _ ha]
      exact congrArg Outcome.returns (modify_congr w c (by rw [react, if_neg hv]))
  | ping text => exact congrArg Outcome.returns (sendMessage_now uv _ ha)
  | handshakeResponse myVersion myAddr yourAddr => rfl
  | pingResponse text => rfl
  | otherPeer host port => rfl

/-- A reaction is a close, one message sent, or a violated assertion. -/
theorem react_cases (name : Str) (m : Message) (k : Client) :
    k.Idle (react uv c name m k) ∨ ∃ m', k.Sends m' (react uv c name m k) := by
  cases m with
  | handshake myVersion yourAddr myAddr =>
    unfold react
    dsimp only
    split
    · exact Or.inl (.shut k)
    · exact Or.inr ⟨_, Client.sends_send _ _ k⟩
  | ping text => exact Or.inr ⟨_, Client.sends_send _ _ k⟩
  | _ => exact Or.inl (.log rfl k)

theorem reaction_react (name : Str) : Reaction (react uv c name) where
  attached {m} {k} h := by
    rcases react_cases uv c name m k with hi | ⟨m', hs⟩
    · exact hi.attached h
    · exact hs.attached h
  buffer m k := by
    rcases react_cases uv c name m k with hi | ⟨m', hs⟩
    · exact hi.myReceiveBuffer
    · exact hs.myReceiveBuffer
  kind m k := by
    rcases react_cases uv c name m k with hi | ⟨m', hs⟩
    · exact hi.kind
    · exact hs.kind
  settled m k h := by
    have hsend : ∀ m' : Message, (k.sendNow uv c m').myState ≠ .connected := by
      intro m'
      unfold Client.sendNow Client.send
      split
      · exact h
      · split
        · rw [Client.myState_shut]
          simp
        · exact fun hs => by cases hs
    cases m with
    | handshake myVersion yourAddr myAddr =>
      unfold react
      dsimp only
      split
      · rw [Client.myState_shut]
        simp
      · exact hsend _
    | ping text => exact hsend _
    | _ => exact h

end

end ServerApp

/-! ## A connection of the server -/

namespace Client

/-- What every connection of the server is. -/
structure Accepted (k : Client) : Prop where
  kind : k.kind = .netClientIn
  attached : k.Attached
  timerActive : k.timerActive = false

/-- A callback under a server of this name, the close callback apart. -/
def serve (uv : Uv) (c : ClientId) (name : Str) (cb : Callback) (k : Client) : Client :=
  match cb with
  | .connected _ => { k with tcp := { k.tcp with connecting := false } }
  | .read nread buf =>
      if nread ≤ 0 then k.shut
      else
        match buf with
        | none => k
        | some base => k.readIn (ServerApp.react uv c name) nread base
  | .wrote status =>
      let k := { k with tcp := { k.tcp with writes := k.tcp.writes - 1 } }.assertWrite
      if status ≠ 0 then k.shut else k
  | .closed => k
  | .timer => k

variable {k k' : Client}

theorem Accepted.idle (hi : k.Idle k') (h : k.Accepted) : k'.Accepted :=
  ⟨hi.kind.trans h.kind, hi.attached h.attached, hi.timerActive.trans h.timerActive⟩

theorem Accepted.sends {m : Message} (hs : k.Sends m k') (h : k.Accepted) : k'.Accepted :=
  ⟨hs.kind.trans h.kind, hs.attached h.attached, hs.timerActive.trans h.timerActive⟩

theorem Idle.assertWrite (k : Client) : k.Idle k.assertWrite := Idle.assert _ _ k

/-- A callback brings data, or it is machinery. -/
theorem serve_cases (uv : Uv) (c : ClientId) (name : Str) (cb : Callback) (k : Client) :
    (∃ nread base, cb = .read nread (some base) ∧ 0 < nread ∧
      k.serve uv c name cb = k.readIn (ServerApp.react uv c name) nread base) ∨
    (∀ nread base, cb = .read nread (some base) → ¬ 0 < nread) ∧
      k.Idle (k.serve uv c name cb) := by
  cases cb with
  | read nread buf =>
    unfold serve
    dsimp only
    by_cases hpos : nread ≤ 0
    · rw [if_pos hpos]
      refine Or.inr ⟨fun nread' base he => ?_, .shut k⟩
      obtain rfl := (Callback.read.inj he).1
      exact Int.not_lt.mpr hpos
    · rw [if_neg hpos]
      cases buf with
      | none => exact Or.inr ⟨fun _ _ he => (by cases he), .refl k⟩
      | some base => exact Or.inl ⟨nread, base, rfl, Int.not_le.mp hpos, rfl⟩
  | wrote status =>
    have hassert := (Idle.bookkeeping (k := k)
      (t := { k.tcp with writes := k.tcp.writes - 1 }) rfl).trans (.assertWrite _)
    unfold serve
    dsimp only
    split
    · exact Or.inr ⟨fun _ _ he => (by cases he), hassert.trans (.shut _)⟩
    · exact Or.inr ⟨fun _ _ he => (by cases he), hassert⟩
  | connected status => exact Or.inr ⟨fun _ _ he => (by cases he), .bookkeeping rfl⟩
  | closed => exact Or.inr ⟨fun _ _ he => (by cases he), .refl k⟩
  | timer => exact Or.inr ⟨fun _ _ he => (by cases he), .refl k⟩

/-- **What a callback can do to a connection**: machinery, bytes buffered or cut, and a message
    it delivers handed over and answered. -/
theorem serve_preserves (uv : Uv) (c : ClientId) (name : Str) {J : Client → Prop}
    (hidle : ∀ {k k' : Client}, k.Idle k' → J k → J k')
    (hbuffer : ∀ {k : Client} (b : Str), J k → J (k.setReceiveBuffer b))
    (cb : Callback)
    (hmessage : ∀ {k' : Client}, ∀ m ∈ cb.delivers k, J k' →
      J (ServerApp.react uv c name m (k'.handOver m))) (h : J k) : J (k.serve uv c name cb) := by
  rcases serve_cases uv c name cb k with ⟨nread, base, rfl, hpos, hserve⟩ | ⟨-, hi⟩
  · rw [Callback.delivers_data _ hpos] at hmessage
    rw [hserve]
    exact digest_preserves (fun b h => hbuffer b h) _ (fun m hm h => hmessage m hm h) (hbuffer _ h)
  · exact hidle hi h

theorem Accepted.serve (uv : Uv) (c : ClientId) (name : Str) (cb : Callback) (h : k.Accepted) :
    (k.serve uv c name cb).Accepted := by
  refine serve_preserves uv c name (J := Accepted) (fun hi h => h.idle hi)
    (fun _ h => ⟨h.kind, h.attached, h.timerActive⟩) cb
    (fun {k'} m _ h => ?_) h
  have hover : (k'.handOver m).Accepted := ⟨h.kind, h.attached, h.timerActive⟩
  rcases ServerApp.react_cases uv c name m (k'.handOver m) with hi | ⟨m', hs⟩
  · exact hover.idle hi
  · exact hover.sends hs

end Client

section

variable (uv : Uv) {c : ClientId} {w : World ServerApp}

/-- **A callback of the server is a function of its connection.** -/
theorem callback_serve (h : (w.clients c).Accepted) {cb : Callback}
    (ha : cb.allowed (w.clients c)) (hcb : cb ≠ .closed) :
    (callback uv c w cb).world = w.modify c (Client.serve uv c w.app.myName cb) ∧
      (callback uv c w cb).threw = cb.throws (w.clients c) := by
  have htimer : cb ≠ .timer := by
    rintro rfl
    exact absurd (h.timerActive.symm.trans ha) (by simp)
  have hname : BaseApp.getName w.app = w.app.myName := rfl
  obtain ⟨hworld, hthrew⟩ := callback_move uv (ServerApp.reaction_react uv c w.app.myName)
    h.attached hname ⟨hcb, htimer⟩
    (fun hk => absurd (h.kind.symm.trans hk) (by simp))
    (fun m _ => ServerApp.takesAs_react uv c w.app m)
  refine ⟨hworld.trans (modify_congr w c ?_), hthrew⟩
  have hin : ∀ k : Client, k.kind = .netClientIn → k.proceed uv c w.app.myName = k :=
    fun k hk => Client.proceed_in uv c w.app.myName hk
  cases cb with
  | connected status =>
    unfold Client.move Client.serve
    dsimp only
    rw [if_pos (Or.inl h.kind)]
  | read nread buf =>
    unfold Client.move Client.serve
    dsimp only
    split
    · rfl
    · cases buf with
      | none => exact hin _ h.kind
      | some base =>
        have hkind : ((w.clients c).readIn (ServerApp.react uv c w.app.myName) nread base).kind =
            .netClientIn := ((ServerApp.reaction_react uv c w.app.myName).kind_digest _ _).trans h.kind
        dsimp only
        rw [hin _ hkind, ite_self]
  | wrote status =>
    unfold Client.move Client.serve
    dsimp only
    split
    · rfl
    · exact hin _ ((Client.Idle.assertWrite _).kind.trans h.kind)
  | closed => rfl
  | timer => rfl

end

/-! ## The store -/

/-- What the store of the server is: an entry holds a client that exists, under its address. -/
structure ServerStore (w : World ServerApp) : Prop where
  known : ∀ e ∈ w.app.myClients.entries, e.2 < w.next
  addr : ∀ e ∈ w.app.myClients.entries, e.1 = (w.clients e.2).myPeerAddr

namespace ServerApp

theorem mem_held {a : ServerApp} {c : ClientId} :
    c ∈ a.held ↔ ∃ addr, (addr, c) ∈ a.myClients.entries := by
  simp [held]

/-- Who is held once the entries of one client are gone. -/
theorem held_closed {w w' : World ServerApp} {d : ClientId}
    (hentries : ∀ e, e ∈ w'.app.myClients.entries ↔ e ∈ w.app.myClients.entries ∧ e.2 ≠ d)
    {c : ClientId} : c ∈ w'.app.held ↔ c ∈ w.app.held ∧ c ≠ d := by
  rw [mem_held, mem_held]
  simp only [hentries, exists_and_right]

section

variable (d : ClientId) (w : World ServerApp)

theorem clients_release (c : ClientId) : (release d w).clients c =
    if c = d ∧ d ∉ w.app.held then (w.clients c).log .destructor else w.clients c := by
  unfold release
  split
  · rename_i hheld
    simp [hheld]
  · rename_i hheld
    rw [World.clients_modify]
    simp [hheld]

@[simp] theorem app_release : (release d w).app = w.app := by
  unfold release
  split <;> rfl

@[simp] theorem next_release : (release d w).next = w.next := by
  unfold release
  split <;> rfl

@[simp] theorem terminated_release : (release d w).terminated = w.terminated := by
  unfold release
  split <;> rfl

end

/-- The store with a new client in. -/
def stored (c : ClientId) (w : World ServerApp) : World ServerApp :=
  { w with app := { w.app with
      myClients := w.app.myClients.insert (w.clients c).getNicePeerAddr c } }

theorem inConnectionReceived_eq (c : ClientId) (w : World ServerApp) :
    inConnectionReceived c w = match w.app.myClients.find? (w.clients c).getNicePeerAddr with
      | none => stored c w
      | some d => release d (stored c w) := rfl

variable {w : World ServerApp}

/-- A client has one entry at most: its address is the key. -/
theorem entry_unique (h : ServerStore w) {c : ClientId} {e : Str × ClientId}
    (he : e ∈ w.app.myClients.entries) (hc : e.2 = c) : e = ((w.clients c).myPeerAddr, c) := by
  have haddr := h.addr e he
  rw [hc] at haddr
  exact Prod.ext haddr hc

theorem find_held (h : ServerStore w) {c : ClientId} :
    (w.app.myClients.entries.find? fun e => e.2 = c) =
      if c ∈ w.app.held then some ((w.clients c).myPeerAddr, c) else none := by
  cases hfind : w.app.myClients.entries.find? fun e => e.2 = c with
  | none =>
    have hno : c ∉ w.app.held := by
      rw [mem_held]
      rintro ⟨addr, he⟩
      have hne := List.find?_eq_none.mp hfind _ he
      simp at hne
    rw [if_neg hno]
  | some e =>
    have hmem := List.mem_of_find?_eq_some hfind
    have hc : e.2 = c := by simpa using List.find?_some hfind
    have heq := entry_unique h hmem hc
    rw [if_pos (mem_held.mpr ⟨e.1, by rw [← hc]; exact hmem⟩), heq]

/-- Two clients under one key are one client. -/
theorem held_injective {a : ServerApp} {addr : Str} {c d : ClientId}
    (hc : (addr, c) ∈ a.myClients.entries) (hd : (addr, d) ∈ a.myClients.entries) : c = d := by
  rw [SortedMap.mem_entries_iff] at hc hd
  rw [hc] at hd
  exact Option.some.inj hd

/-- **Closing takes the client out of the store, and no other.** -/
theorem entries_connectionClosed (h : ServerStore w) (c : ClientId) (e : Str × ClientId) :
    e ∈ (connectionClosed c w).app.myClients.entries ↔
      e ∈ w.app.myClients.entries ∧ e.2 ≠ c := by
  unfold connectionClosed
  rw [find_held h]
  by_cases hheld : c ∈ w.app.held
  · obtain ⟨addr, haddr⟩ := mem_held.mp hheld
    have hentry := entry_unique h haddr rfl
    rw [if_pos hheld]
    dsimp only
    rw [app_release, SortedMap.mem_entries_erase]
    refine and_congr_right fun he => not_congr ⟨fun hkey => ?_, fun hc => ?_⟩
    · rw [hentry] at haddr
      exact held_injective (hkey ▸ he) haddr
    · rw [entry_unique h he hc]
  · rw [if_neg hheld]
    refine ⟨fun he => ⟨he, fun hc => hheld (mem_held.mpr ⟨e.1, ?_⟩)⟩, fun he => he.1⟩
    rw [← hc]
    exact he

theorem held_connectionClosed (h : ServerStore w) (c d : ClientId) :
    d ∈ (connectionClosed c w).app.held ↔ d ∈ w.app.held ∧ d ≠ c :=
  held_closed (entries_connectionClosed h c)

/-- The client is destroyed if the store held it. -/
theorem clients_connectionClosed (h : ServerStore w) (c d : ClientId) :
    (connectionClosed c w).clients d =
      if d = c ∧ c ∈ w.app.held then (w.clients d).log .destructor else w.clients d := by
  have hgone : c ∉ (connectionClosed c w).app.held := fun hc =>
    ((held_connectionClosed h c c).mp hc).2 rfl
  unfold connectionClosed at hgone ⊢
  rw [find_held h] at hgone ⊢
  by_cases hheld : c ∈ w.app.held
  · rw [if_pos hheld] at hgone ⊢
    dsimp only at hgone ⊢
    rw [app_release] at hgone
    rw [clients_release]
    simp [hheld, hgone]
  · rw [if_neg hheld]
    simp [hheld]

theorem rest_connectionClosed (c : ClientId) (w : World ServerApp) :
    (connectionClosed c w).next = w.next ∧ (connectionClosed c w).terminated = w.terminated ∧
      (connectionClosed c w).app.myName = w.app.myName := by
  unfold connectionClosed
  split
  · exact ⟨rfl, rfl, rfl⟩
  · exact ⟨next_release _ _, terminated_release _ _, by rw [app_release]⟩

/-! ### Accepting -/

/-- Who is held once a connection is accepted. -/
theorem held_accepted {w w' : World ServerApp} (h : ServerStore w) {a : Str}
    (hentries : ∀ e, e ∈ w'.app.myClients.entries ↔
      e = (a, w.next) ∨ e.1 ≠ a ∧ e ∈ w.app.myClients.entries) {c : ClientId} :
    c ∈ w'.app.held ↔ c = w.next ∨ c ∈ w.app.held ∧ a ≠ (w.clients c).myPeerAddr := by
  rw [mem_held, mem_held]
  simp only [hentries, Prod.mk.injEq]
  constructor
  · rintro ⟨addr, ⟨-, hc⟩ | ⟨hne, he⟩⟩
    · exact Or.inl hc
    · refine Or.inr ⟨⟨addr, he⟩, fun heq => hne ?_⟩
      exact (h.addr _ he).trans heq.symm
  · rintro (hc | ⟨⟨addr, he⟩, hne⟩)
    · exact ⟨_, Or.inl ⟨rfl, hc⟩⟩
    · refine ⟨addr, Or.inr ⟨fun heq => hne ?_, he⟩⟩
      exact heq.symm.trans (h.addr _ he)

/-- The client that is accepted next. -/
def newcomer (uv : Uv) (c : ClientId) : Client :=
  NetClientIn.new (getRemoteAddress uv (uv.getpeername c 1))

/-- The entries once a client is in: it has taken the place of whoever had its address. -/
theorem entries_stored (c : ClientId) (w : World ServerApp) (e : Str × ClientId) :
    e ∈ (stored c w).app.myClients.entries ↔
      e = ((w.clients c).getNicePeerAddr, c) ∨
        e.1 ≠ (w.clients c).getNicePeerAddr ∧ e ∈ w.app.myClients.entries := by
  obtain ⟨addr, d⟩ := e
  show (addr, d) ∈ (w.app.myClients.insert _ c).entries ↔ _
  rw [SortedMap.mem_entries_insert, Prod.mk.injEq]

theorem app_inConnectionReceived (c : ClientId) (w : World ServerApp) :
    (inConnectionReceived c w).app = (stored c w).app := by
  rw [inConnectionReceived_eq]
  split
  · rfl
  · exact app_release _ _

theorem rest_inConnectionReceived (c : ClientId) (w : World ServerApp) :
    (inConnectionReceived c w).next = w.next ∧
      (inConnectionReceived c w).terminated = w.terminated := by
  rw [inConnectionReceived_eq]
  split
  · exact ⟨rfl, rfl⟩
  · exact ⟨next_release _ _, terminated_release _ _⟩

/-- Whoever had the address is destroyed. -/
theorem clients_inConnectionReceived {c : ClientId} (h : ServerStore w)
    (hc : ∀ e ∈ w.app.myClients.entries, e.2 ≠ c) (d : ClientId) :
    (inConnectionReceived c w).clients d =
      if ((w.clients c).getNicePeerAddr, d) ∈ w.app.myClients.entries then
        (w.clients d).log .destructor
      else w.clients d := by
  rw [inConnectionReceived_eq]
  cases hfind : w.app.myClients.find? (w.clients c).getNicePeerAddr with
  | none =>
    have hno : ((w.clients c).getNicePeerAddr, d) ∉ w.app.myClients.entries := by
      rw [SortedMap.mem_entries_iff, hfind]
      simp
    rw [if_neg hno]
    rfl
  | some d₀ =>
    have hd₀ := (SortedMap.mem_entries_iff _ _ _).mpr hfind
    -- its one entry has been overwritten
    have hgone : d₀ ∉ (stored c w).app.held := by
      rw [mem_held]
      rintro ⟨addr, he⟩
      rcases (entries_stored c w _).mp he with heq | ⟨hne, he⟩
      · exact hc _ hd₀ (congrArg Prod.snd heq)
      · exact hne ((h.addr _ he).trans (h.addr _ hd₀).symm)
    show (release d₀ (stored c w)).clients d = _
    rw [clients_release]
    by_cases hd : d = d₀
    · subst hd
      rw [if_pos ⟨rfl, hgone⟩, if_pos hd₀]
      rfl
    · have hno : ((w.clients c).getNicePeerAddr, d) ∉ w.app.myClients.entries :=
        fun he => hd (held_injective he hd₀)
      rw [if_neg (fun hboth => hd hboth.1), if_neg hno]
      rfl

end ServerApp

section

variable (uv : Uv) {w : World ServerApp}

/-- What the store says of a world is not disturbed by the object that is created next. -/
theorem ServerStore.create (h : ServerStore w) (k : Client) : ServerStore (w.create k) where
  known e he := Nat.lt_succ_of_lt (h.known e he)
  addr e he := by
    rw [World.clients_create_ne _ _ (Nat.ne_of_lt (h.known e he))]
    exact h.addr e he

/-- **A connection is accepted**: the newcomer starts reading, and whoever had its address is
    destroyed. -/
theorem onNewConnection_accepted (h : ServerStore w) {status acceptRes : Int}
    (hs : ¬ status < 0) (hr : ¬ acceptRes < 0) :
    (∀ d, (onNewConnection uv status acceptRes w).clients d =
      if d = w.next then (ServerApp.newcomer uv w.next).readNow uv w.next
      else if ((ServerApp.newcomer uv w.next).myPeerAddr, d) ∈ w.app.myClients.entries then
        (w.clients d).log .destructor
      else w.clients d) ∧
    (∀ e, e ∈ (onNewConnection uv status acceptRes w).app.myClients.entries ↔
      e = ((ServerApp.newcomer uv w.next).myPeerAddr, w.next) ∨
        e.1 ≠ (ServerApp.newcomer uv w.next).myPeerAddr ∧ e ∈ w.app.myClients.entries) ∧
    (onNewConnection uv status acceptRes w).next = w.next + 1 ∧
    (onNewConnection uv status acceptRes w).terminated = w.terminated ∧
    (onNewConnection uv status acceptRes w).app.myName = w.app.myName := by
  have hclients := ServerApp.clients_inConnectionReceived
    (h.create (ServerApp.newcomer uv w.next)) (c := w.next)
    fun e he => Nat.ne_of_lt (h.known e he)
  rw [World.clients_create_next] at hclients
  have hnot : ((ServerApp.newcomer uv w.next).getNicePeerAddr, w.next) ∉
      (w.create (ServerApp.newcomer uv w.next)).app.myClients.entries :=
    fun he => Nat.lt_irrefl _ (h.known _ he)
  have hself := hclients w.next
  rw [if_neg hnot, World.clients_create_next] at hself
  have haccept : onNewConnection uv status acceptRes w =
      (ServerApp.inConnectionReceived w.next (w.create (ServerApp.newcomer uv w.next))).modify
        w.next (Client.readNow uv w.next) := by
    unfold onNewConnection
    rw [if_neg hs, if_neg hr]
    refine doRead_now uv ?_
    show ((ServerApp.inConnectionReceived w.next (w.create (ServerApp.newcomer uv w.next))).clients
      w.next).Attached
    rw [hself]
    exact fun _ => rfl
  obtain ⟨hnext, hterm⟩ := ServerApp.rest_inConnectionReceived w.next
    (w.create (ServerApp.newcomer uv w.next))
  rw [haccept]
  refine ⟨fun d => ?_, fun e => ?_, hnext, hterm, ?_⟩
  · rw [World.clients_modify]
    by_cases hd : d = w.next
    · subst hd
      rw [if_pos rfl, if_pos rfl, hself]
    · rw [if_neg hd, if_neg hd, hclients d, World.clients_create_ne _ _ hd]
      rfl
  · rw [World.app_modify, ServerApp.app_inConnectionReceived, ServerApp.entries_stored,
      World.clients_create_next]
    rfl
  · rw [World.app_modify, ServerApp.app_inConnectionReceived]
    rfl

end

/-! ## One event -/

/-- `onClose` of a connection; the client is destroyed if the store holds it. -/
def Client.retire (held : Bool) (k : Client) : Client :=
  let k := ({ k with tcp := { k.tcp with closed := true } } : Client).log .connectionClosed
  ((if held then k.log .destructor else k).log .deleteHandle).setState .closed

/-- What holds of the server between two events. -/
structure ServerSane (w : World ServerApp) : Prop extends ServerStore w where
  accepted : ∀ c, (w.clients c).Accepted

/-- **What one event makes of the server**, by its kind. -/
inductive ServerMove (uv : Uv) (s : ServerRun) (w' : World ServerApp) : ServerEvent → Prop
  /-- a step of `start`, or a connection that is not accepted -/
  | aside {e : ServerEvent} (event : ∀ c cb, e ≠ .client c cb)
      (clients : w'.clients = s.world.clients)
      (store : w'.app.myClients = s.world.app.myClients) (next : w'.next = s.world.next)
      (name : e ≠ .setName → w'.app.myName = s.world.app.myName) : ServerMove uv s w' e
  | accepted {status acceptRes : Int}
      (clients : ∀ d, w'.clients d =
        if d = s.world.next then (ServerApp.newcomer uv s.world.next).readNow uv s.world.next
        else if ((ServerApp.newcomer uv s.world.next).myPeerAddr, d) ∈
            s.world.app.myClients.entries then
          (s.world.clients d).log .destructor
        else s.world.clients d)
      (entries : ∀ e, e ∈ w'.app.myClients.entries ↔
        e = ((ServerApp.newcomer uv s.world.next).myPeerAddr, s.world.next) ∨
          e.1 ≠ (ServerApp.newcomer uv s.world.next).myPeerAddr ∧
            e ∈ s.world.app.myClients.entries)
      (next : w'.next = s.world.next + 1) (name : w'.app.myName = s.world.app.myName) :
      ServerMove uv s w' (.newConnection status acceptRes)
  | served {c : ClientId} {cb : Callback} (notClosed : cb ≠ .closed) (known : c < s.world.next)
      (allowed : cb.allowed (s.world.clients c))
      (clients : ∀ d, w'.clients d =
        if d = c then (s.world.clients c).serve uv c s.world.app.myName cb
        else s.world.clients d)
      (app : w'.app = s.world.app) (next : w'.next = s.world.next) :
      ServerMove uv s w' (.client c cb)
  | closed {c : ClientId} (known : c < s.world.next)
      (allowed : Callback.closed.allowed (s.world.clients c))
      (clients : ∀ d, w'.clients d =
        if d = c then (s.world.clients c).retire (c ∈ s.world.app.held) else s.world.clients d)
      (entries : ∀ e, e ∈ w'.app.myClients.entries ↔
        e ∈ s.world.app.myClients.entries ∧ e.2 ≠ c)
      (next : w'.next = s.world.next) (name : w'.app.myName = s.world.app.myName) :
      ServerMove uv s w' (.client c .closed)

section

variable {uv : Uv} {s : ServerRun}

/-- Listening is between the server and libuv. -/
theorem doListenFrom_server (uv : Uv) : ∀ (n : Nat) (port : Int32) (w : World ServerApp),
    (doListenFrom uv n port w).1.clients = w.clients ∧ (doListenFrom uv n port w).1.app = w.app ∧
      (doListenFrom uv n port w).1.next = w.next := by
  intro n
  induction n with
  | zero => intro port w; exact ⟨rfl, rfl, rfl⟩
  | succ n ih =>
    intro port w
    rw [doListenFrom]
    split
    · exact ⟨rfl, rfl, rfl⟩
    · exact ih _ w

theorem onClose_server (h : ServerSane s.world) {c : ClientId} (hc : c < s.world.next)
    (ha : Callback.closed.allowed (s.world.clients c)) :
    ServerMove uv s (serverStep uv s (.client c .closed)).world (.client c .closed) := by
  show ServerMove uv s (onClose c (s.world.modify c fun k =>
    { k with tcp := { k.tcp with closed := true } })) _
  unfold onClose
  dsimp only
  rw [World.modify_modify, World.modify_modify]
  generalize hw : s.world.modify c _ = w
  have hstore : ServerStore w := by
    subst hw
    refine ⟨h.known, fun e he => (h.addr e he).trans ?_⟩
    rw [World.clients_modify]
    split <;> rfl
  have happ : w.app = s.world.app := by rw [← hw]; rfl
  have hnext : w.next = s.world.next := by rw [← hw]; rfl
  obtain ⟨hnext', -, hname'⟩ := ServerApp.rest_connectionClosed c w
  refine .closed hc ha (fun d => ?_) (fun e => ?_) (hnext'.trans hnext)
    (hname'.trans (congrArg ServerApp.myName happ))
  · have hclosed := ServerApp.clients_connectionClosed hstore c d
    rw [happ] at hclosed
    show ((ServerApp.connectionClosed c w).modify c _).clients d = _
    rw [World.clients_modify, hclosed, ← hw]
    by_cases hd : d = c
    · subst hd
      rw [if_pos rfl, if_pos rfl, World.clients_modify_self]
      by_cases hheld : d ∈ s.world.app.held
      · simp [hheld, Client.retire]
      · simp [hheld, Client.retire]
    · rw [if_neg hd, if_neg hd, if_neg (fun hboth => hd hboth.1), World.clients_modify_ne _ _ hd]
  · show e ∈ (ServerApp.connectionClosed c w).app.myClients.entries ↔ _
    rw [ServerApp.entries_connectionClosed hstore, happ]

theorem serverStep_move (h : ServerSane s.world) {e : ServerEvent}
    (ha : (serverSystem uv).allowed s e) : ServerMove uv s (serverStep uv s e).world e := by
  cases e with
  | listen params =>
    obtain ⟨hclients, happ, hnext⟩ := doListenFrom_server uv
      (max (min params.listenPortRange.toInt 10) 1).toNat params.listenPort s.world
    exact .aside (fun _ _ he => by cases he) hclients (congrArg ServerApp.myClients happ) hnext
      fun _ => congrArg ServerApp.myName happ
  | startUvLoop =>
    obtain ⟨-, port, hport⟩ := ha
    unfold serverStep
    rw [hport]
    exact .aside (fun _ _ he => by cases he) rfl rfl rfl fun _ => rfl
  | setName =>
    obtain ⟨-, port, hport⟩ := ha
    unfold serverStep
    rw [hport]
    exact .aside (fun _ _ he => by cases he) rfl rfl rfl fun hne => absurd rfl hne
  | newConnection status acceptRes =>
    show ServerMove uv s (onNewConnection uv status acceptRes s.world) _
    by_cases hs : status < 0
    · rw [onNewConnection, if_pos hs]
      exact .aside (fun _ _ he => by cases he) rfl rfl rfl fun _ => rfl
    · by_cases hr : acceptRes < 0
      · rw [onNewConnection, if_neg hs, if_pos hr]
        exact .aside (fun _ _ he => by cases he) rfl rfl rfl fun _ => rfl
      · obtain ⟨hclients, hentries, hnext, -, hname⟩ :=
          onNewConnection_accepted uv h.toServerStore hs hr
        exact .accepted hclients hentries hnext hname
  | client c cb =>
    obtain ⟨-, -, hc, hcb⟩ := ha
    by_cases hclosed : cb = .closed
    · subst hclosed
      exact onClose_server h hc hcb
    · obtain ⟨hworld, -⟩ := callback_serve uv (h.accepted c) hcb hclosed
      show ServerMove uv s (callback uv c s.world cb).settle _
      refine .served hclosed hc hcb (fun d => ?_) ?_ ?_
      · rw [Outcome.clients_settle, hworld, World.clients_modify]
        split
        · rename_i hd
          rw [hd]
        · rfl
      · rw [Outcome.app_settle, hworld]
        rfl
      · rw [Outcome.next_settle, hworld]
        rfl

/-! ### What every event preserves -/

theorem Client.myPeerAddr_serve (uv : Uv) (c : ClientId) (name : Str) (cb : Callback) (k : Client) :
    (k.serve uv c name cb).myPeerAddr = k.myPeerAddr := by
  refine Client.serve_preserves uv c name (J := fun k' => k'.myPeerAddr = k.myPeerAddr)
    (fun hi h => hi.myPeerAddr.trans h) (fun _ h => h) cb (fun {k'} m _ h => ?_) rfl
  rcases ServerApp.react_cases uv c name m (k'.handOver m) with hi | ⟨m', hs⟩
  · exact hi.myPeerAddr.trans h
  · exact hs.myPeerAddr.trans h

theorem Client.Accepted.retire {k : Client} (held : Bool) (h : k.Accepted) :
    (k.retire held).Accepted := by
  cases held with
  | true => exact ⟨h.kind, h.attached, h.timerActive⟩
  | false => exact ⟨h.kind, h.attached, h.timerActive⟩

theorem Client.myPeerAddr_retire (held : Bool) (k : Client) :
    (k.retire held).myPeerAddr = k.myPeerAddr := by
  cases held <;> rfl

theorem ServerApp.idle_newcomer (uv : Uv) (c : ClientId) :
    (newcomer uv c).Idle ((newcomer uv c).readNow uv c) := Client.Idle.read _ _

theorem ServerApp.accepted_newcomer (uv : Uv) (c : ClientId) :
    ((newcomer uv c).readNow uv c).Accepted :=
  Client.Accepted.idle (idle_newcomer uv c) ⟨rfl, fun _ => rfl, rfl⟩

theorem ServerMove.sane {w' : World ServerApp} {e : ServerEvent} (hm : ServerMove uv s w' e)
    (h : ServerSane s.world) : ServerSane w' := by
  cases hm with
  | aside _ hclients hstore hnext =>
    refine ⟨⟨?_, ?_⟩, ?_⟩
    · rw [hstore, hnext]
      exact h.known
    · rw [hstore, hclients]
      exact h.addr
    · rw [hclients]
      exact h.accepted
  | accepted hclients hentries hnext =>
    have hlog : ∀ {k : Client} {a : Act}, k.Accepted → (k.log a).Accepted :=
      fun hk => ⟨hk.kind, hk.attached, hk.timerActive⟩
    refine ⟨⟨fun e he => ?_, fun e he => ?_⟩, fun d => ?_⟩
    · rw [hnext]
      rcases (hentries e).mp he with rfl | ⟨-, he⟩
      · exact Nat.lt_succ_self _
      · exact Nat.lt_succ_of_lt (h.known e he)
    · rw [hclients]
      rcases (hentries e).mp he with rfl | ⟨-, he⟩
      · rw [if_pos rfl, (ServerApp.idle_newcomer uv _).myPeerAddr]
      · rw [if_neg (Nat.ne_of_lt (h.known e he))]
        split
        · exact h.addr e he
        · exact h.addr e he
    · rw [hclients]
      split
      · exact ServerApp.accepted_newcomer uv _
      · split
        · exact hlog (h.accepted d)
        · exact h.accepted d
  | @served c cb _ _ _ hclients happ hnext =>
    refine ⟨⟨?_, fun e he => ?_⟩, fun d => ?_⟩
    · rw [happ, hnext]
      exact h.known
    · rw [happ] at he
      rw [hclients, h.addr e he]
      split
      · rename_i heq
        rw [Client.myPeerAddr_serve, heq]
      · rfl
    · rw [hclients]
      split
      · exact (h.accepted c).serve uv c _ cb
      · exact h.accepted d
  | @closed c _ _ hclients hentries hnext =>
    refine ⟨⟨fun e he => ?_, fun e he => ?_⟩, fun d => ?_⟩
    · rw [hnext]
      exact h.known e ((hentries e).mp he).1
    · obtain ⟨he, hne⟩ := (hentries e).mp he
      rw [hclients, if_neg hne]
      exact h.addr e he
    · rw [hclients]
      split
      · exact (h.accepted c).retire _
      · exact h.accepted d

theorem serverSane_init : ServerSane ServerRun.init.world where
  known e he := by simp [ServerRun.init, World.init, SortedMap.empty] at he
  addr e he := by simp [ServerRun.init, World.init, SortedMap.empty] at he
  accepted _ := ⟨rfl, fun _ => rfl, rfl⟩

theorem serverSane_step (s : ServerRun) (e : ServerEvent) (h : ServerSane s.world)
    (ha : (serverSystem uv).allowed s e) : ServerSane ((serverSystem uv).step s e).world :=
  (serverStep_move h ha).sane h

end

end TcpUv
