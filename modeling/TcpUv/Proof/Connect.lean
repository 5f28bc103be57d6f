import TcpUv.NetClient

/-!
# Connecting

The methods at the two ends of an attempt to connect, as functions of the client. `connect()`
turns down a connection that is up or about to go down (`Refuses`); else it is `dial`. A
successful `onConnect` is `establish`, and `process()`.
-/

set_option autoImplicit false

namespace TcpUv

namespace Client

/-- `connect()` returns at its guard. -/
def Refuses (k : Client) : Prop :=
  State.connected.toNat ≤ k.myState.toNat ∧ k.myState.toNat < State.closed.toNat

theorem refuses_of_state {k : Client} (s : State) (h : k.myState = s)
    (hs : State.connected.toNat ≤ s.toNat ∧ s.toNat < State.closed.toNat) : k.Refuses := by
  unfold Refuses
  rw [h]
  exact hs

theorem not_refuses_of_state {k : Client} (s : State) (h : k.myState = s)
    (hs : ¬ (State.connected.toNat ≤ s.toNat ∧ s.toNat < State.closed.toNat)) : ¬ k.Refuses := by
  unfold Refuses
  rw [h]
  exact hs

/-- `connect()` past its guard, up to `uv_tcp_connect`. -/
def dialled (k : Client) : Client :=
  { ((k.log .connectCall).setState .connecting).setUvStream with mySendCounter := 0 }

/-- `connect()` of a fresh connection, where `uv_tcp_connect` answers `res`. -/
def dial (res : Int) (k : Client) : Client :=
  let k := { ((k.log .connectCall).setState .connecting).setUvStream with mySendCounter := 0 }
  if res ≠ 0 then k else { k with tcp := { k.tcp with connecting := true } }

/-- Only whether an attempt is pending is up to libuv. -/
theorem dial_eq (res : Int) (k : Client) : ∃ b,
    k.dial res = { k.dialled with tcp := { k.dialled.tcp with connecting := b } } := by
  unfold dial
  dsimp only
  split
  · exact ⟨false, rfl⟩
  · exact ⟨true, rfl⟩

theorem acts_dialled (k : Client) : k.dialled.acts = k.acts ++ [.connectCall, .state .connecting] :=
  List.append_assoc k.acts [.connectCall] [.state .connecting]

/-- `onConnect`, up to `process()`. -/
def establish (uv : Uv) (c : ClientId) (k : Client) : Client :=
  let remoteHost := (getRemoteAddressHostPort uv (uv.getpeername c k.tcp.handle)).1
  Client.setState .connected
    (if remoteHost ≠ k.myHost then
      { k with myCanonPeerAddr := remoteHost ++ ':' :: stdToString k.myPort.toInt } else k)

/-- At most the canonical address is new when a connection is established. -/
theorem establish_eq (uv : Uv) (c : ClientId) (k : Client) : ∃ canon,
    k.establish uv c = ({ k with myCanonPeerAddr := canon } : Client).setState .connected := by
  unfold establish
  dsimp only
  split
  · exact ⟨_, rfl⟩
  · exact ⟨k.myCanonPeerAddr, rfl⟩

end Client

section

variable {σ : Type}

theorem modify_congr (w : World σ) (c : ClientId) {f g : Client → Client}
    (h : f (w.clients c) = g (w.clients c)) : w.modify c f = w.modify c g := by
  unfold World.modify
  rw [h]

theorem connect_refused [BaseApp σ] (uv : Uv) {c : ClientId} {w : World σ}
    (h : (w.clients c).Refuses) : connect uv c w = (w, -1) := if_pos h

theorem connect_dial [BaseApp σ] (uv : Uv) {c : ClientId} {w : World σ}
    (h : ¬ (w.clients c).Refuses) :
    (connect uv c w).1 = w.modify c (Client.dial (uv.tcpConnect c (w.clients c).dialled)) := by
  have hres : uv.tcpConnect c ((w.modify c Client.dialled).clients c) =
      uv.tcpConnect c (w.clients c).dialled := by rw [World.clients_modify_self]
  unfold Client.Refuses at h
  unfold connect
  dsimp only
  rw [if_neg h]
  change (if uv.tcpConnect c ((w.modify c Client.dialled).clients c) ≠ 0 then
      (w.modify c Client.dialled, uv.tcpConnect c ((w.modify c Client.dialled).clients c))
    else ((w.modify c Client.dialled).modify c fun k =>
      { k with tcp := { k.tcp with connecting := true } }, 0)).1 = _
  rw [hres]
  by_cases hfail : uv.tcpConnect c (w.clients c).dialled ≠ 0
  · rw [if_pos hfail]
    apply modify_congr w c
    unfold Client.dial
    rw [if_pos hfail]
    rfl
  · rw [if_neg hfail, World.modify_modify]
    apply modify_congr w c
    unfold Client.dial
    rw [if_neg hfail]
    rfl

/-- **`connect()`**, over any app. -/
theorem connect_cases [BaseApp σ] (uv : Uv) (c : ClientId) (w : World σ) :
    (w.clients c).Refuses ∧ (connect uv c w).1 = w ∨
      ¬ (w.clients c).Refuses ∧ ∃ res, (connect uv c w).1 = w.modify c (Client.dial res) := by
  by_cases h : (w.clients c).Refuses
  · exact Or.inl ⟨h, congrArg Prod.fst (connect_refused uv h)⟩
  · exact Or.inr ⟨h, _, connect_dial uv h⟩

/-- What the client is made of by `connect()`: nothing, or a new attempt. -/
theorem clients_connect [BaseApp σ] (uv : Uv) (c : ClientId) (w : World σ) :
    (w.clients c).Refuses ∧ (connect uv c w).1.clients c = w.clients c ∨
      ¬ (w.clients c).Refuses ∧ ∃ b, (connect uv c w).1.clients c = { (w.clients c).dialled with
        tcp := { (w.clients c).dialled.tcp with connecting := b } } := by
  rcases connect_cases uv c w with ⟨hg, heq⟩ | ⟨hg, res, heq⟩
  · exact Or.inl ⟨hg, by rw [heq]⟩
  · obtain ⟨b, hb⟩ := (w.clients c).dial_eq res
    exact Or.inr ⟨hg, b, by rw [heq, World.clients_modify_self, hb]⟩

/-- **`onConnect`**, over any app. -/
theorem onConnect_eq [App σ] (uv : Uv) (c : ClientId) (status : Int) (w : World σ) :
    onConnect uv c status w =
      if (w.clients c).kind = .netClientIn ∨ status ≠ 0 then w
      else process uv c (w.modify c (Client.establish uv c)) := by
  unfold onConnect
  by_cases hin : (w.clients c).kind = .netClientIn
  · rw [if_pos hin, if_pos (Or.inl hin)]
  · rw [if_neg hin]
    by_cases hst : status ≠ 0
    · rw [if_pos hst, if_pos (Or.inr hst)]
    · rw [if_neg hst, if_neg (not_or.mpr ⟨hin, hst⟩)]
      -- the source writes the canonical address and the state one after the other
      dsimp only
      split
      · rename_i hhost
        rw [World.modify_modify]
        refine congrArg (process uv c) (modify_congr w c ?_)
        unfold Client.establish
        dsimp only [Function.comp]
        rw [if_pos hhost]
      · rename_i hhost
        refine congrArg (process uv c) (modify_congr w c ?_)
        unfold Client.establish
        dsimp only
        rw [if_neg hhost]

end

end TcpUv
