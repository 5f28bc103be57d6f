import TcpUv.Script
import TcpUv.Proof.Connect

/-!
# A connection on its own

`close`, `sendMessage` and `doRead` call the app in one case only: when `close` finds the
handle already closing. A client that holds its stream has not closed it (`Attached`),
so that case does not arise, and the three methods are functions of the client alone —
`shut`, `send` and `read` below, over any app. What the rest of the development knows of
these methods it knows through `close_eq`, `sendMessage_eq` and `doRead_eq`.
-/

set_option autoImplicit false

namespace TcpUv

namespace Client

/-- The stream a client holds is one it has not closed. -/
def Attached (k : Client) : Prop := k.myUvStream.isSome = true → k.tcp.closing = false

/-- A connection `sendMessage` writes on. -/
def IsOpen (k : Client) : Prop := k.myState ≠ .closing ∧ k.myState ≠ .closed

/-- `close()`. -/
def shut (k : Client) : Client :=
  match k.myUvStream with
  | none => (k.log .closeCall).setState .closing
  | some h => { (k.log .closeCall).setState .closing with myUvStream := none }.uvClose h

/-- `sendMessage(m)`, where `uv_write` answers `res`. -/
def send (m : Message) (res : Int) (k : Client) : Client :=
  if k.myState = .closing ∨ k.myState = .closed then k.log (.sendMessage m)
  else if res ≠ 0 then (((k.log (.sendMessage m)).setState .sending).uvWrite (frame m) res).shut
  else ((k.log (.sendMessage m)).setState .sending).uvWrite (frame m) res

/-- `doRead()`, where `uv_read_start` answers `res`. -/
def read (res : Int) (k : Client) : Client :=
  let k := ((k.assert .doRead (k.myState = .accepted || k.myState = .sent ||
    k.myState = .sending || k.myState = .receiving)).setState .receiving).uvReadStart res
  if res < 0 then k.shut else k

theorem attached_shut (k : Client) : k.shut.Attached := by
  unfold shut
  split
  · rename_i h
    intro hs
    rw [show ((k.log .closeCall).setState .closing).myUvStream = k.myUvStream from rfl, h] at hs
    cases hs
  · intro hs
    cases hs

@[simp] theorem myState_shut (k : Client) : k.shut.myState = .closing := by
  unfold shut
  split <;> rfl

@[simp] theorem myUvStream_shut (k : Client) : k.shut.myUvStream = none := by
  unfold shut
  split
  · rename_i h
    exact h
  · rfl

@[simp] theorem kind_shut (k : Client) : k.shut.kind = k.kind := by
  unfold shut
  split <;> rfl

@[simp] theorem myPeerAddr_shut (k : Client) : k.shut.myPeerAddr = k.myPeerAddr := by
  unfold shut
  split <;> rfl

@[simp] theorem closing_uvWrite (fr : Str) (res : Int) (k : Client) :
    (k.uvWrite fr res).tcp.closing = k.tcp.closing := by
  unfold uvWrite
  dsimp only
  split <;> rfl

@[simp] theorem closed_uvWrite (fr : Str) (res : Int) (k : Client) :
    (k.uvWrite fr res).tcp.closed = k.tcp.closed := by
  unfold uvWrite
  dsimp only
  split <;> rfl

@[simp] theorem reading_uvWrite (fr : Str) (res : Int) (k : Client) :
    (k.uvWrite fr res).tcp.reading = k.tcp.reading := by
  unfold uvWrite
  dsimp only
  split <;> rfl

@[simp] theorem connecting_uvWrite (fr : Str) (res : Int) (k : Client) :
    (k.uvWrite fr res).tcp.connecting = k.tcp.connecting := by
  unfold uvWrite
  dsimp only
  split <;> rfl

@[simp] theorem closing_uvReadStart (res : Int) (k : Client) :
    (k.uvReadStart res).tcp.closing = k.tcp.closing := by
  unfold uvReadStart
  dsimp only
  split <;> rfl

@[simp] theorem closed_uvReadStart (res : Int) (k : Client) :
    (k.uvReadStart res).tcp.closed = k.tcp.closed := by
  unfold uvReadStart
  dsimp only
  split <;> rfl

/-- Nothing starts without a stream. -/
theorem tcp_uvReadStart_none {k : Client} (h : k.myUvStream = none) (res : Int) :
    (k.uvReadStart res).tcp = k.tcp := by
  unfold uvReadStart
  dsimp only
  rw [if_neg (by rw [h]; simp)]

/-- In the states `doRead` is called in, its assertion is no matter. -/
theorem assert_doRead {k : Client} (h : k.myState = .sending ∨ k.myState = .sent ∨
    k.myState = .receiving ∨ k.myState = .accepted) :
    k.assert .doRead (k.myState = .accepted || k.myState = .sent || k.myState = .sending ||
      k.myState = .receiving) = k := by
  rcases h with h | h | h | h <;> simp [assert, h]

theorem attached_uvWrite {fr : Str} {res : Int} {k : Client} (h : k.Attached) :
    (k.uvWrite fr res).Attached := fun hs => (closing_uvWrite fr res k).trans (h hs)

theorem attached_uvReadStart {res : Int} {k : Client} (h : k.Attached) :
    (k.uvReadStart res).Attached := fun hs => (closing_uvReadStart res k).trans (h hs)

theorem attached_assert {site : Assertion} {b : Bool} {k : Client} (h : k.Attached) :
    (k.assert site b).Attached := by
  unfold assert
  split
  · exact h
  · exact h

theorem attached_send {m : Message} {res : Int} {k : Client} (h : k.Attached) :
    (k.send m res).Attached := by
  unfold send
  split
  · exact h
  · split
    · exact attached_shut _
    · exact attached_uvWrite h

end Client

/-! ## The methods, over any app -/

section

variable {σ : Type}

variable [BaseApp σ] (uv : Uv) {c : ClientId} {w : World σ}

theorem close_eq (h : (w.clients c).Attached) : (close c w).1 = w.modify c Client.shut := by
  have hkept : ((w.modify c fun k => (k.log .closeCall).setState .closing).clients c).myUvStream =
      (w.clients c).myUvStream := by
    rw [World.clients_modify_self]
    rfl
  unfold close
  dsimp only
  rw [hkept]
  cases hs : (w.clients c).myUvStream with
  | none =>
    dsimp only
    apply modify_congr w c
    unfold Client.shut
    rw [hs]
  | some hd =>
    have hopen : (((w.modify c fun k => (k.log .closeCall).setState .closing).modify c
        fun k => { k with myUvStream := none }).clients c).tcp.closing = false := by
      rw [World.clients_modify_self, World.clients_modify_self]
      exact h (by rw [hs]; rfl)
    dsimp only
    rw [hopen, if_neg (by simp), World.modify_modify, World.modify_modify]
    apply modify_congr w c
    unfold Client.shut
    rw [hs]
    rfl

/-- What `uv_write` answers to `sendMessage(m)` in this state. -/
def writeAnswer (c : ClientId) (m : Message) (k : Client) : Int :=
  uv.write c ((k.log (.sendMessage m)).setState .sending)

/-- What `uv_read_start` answers to `doRead()` in this state. -/
def readAnswer (c : ClientId) (k : Client) : Int :=
  uv.readStart c ((k.assert .doRead (k.myState = .accepted || k.myState = .sent ||
    k.myState = .sending || k.myState = .receiving)).setState .receiving)

theorem sendMessage_eq (h : (w.clients c).Attached) (m : Message) :
    (sendMessage uv c m w).1 =
      w.modify c (Client.send m (writeAnswer uv c m (w.clients c))) := by
  have hstate : ((w.modify c (·.log (.sendMessage m))).clients c).myState =
      (w.clients c).myState := by
    rw [World.clients_modify_self]
    rfl
  unfold sendMessage
  dsimp only
  rw [hstate]
  by_cases hclosed : (w.clients c).myState = .closing ∨ (w.clients c).myState = .closed
  · rw [if_pos hclosed]
    apply modify_congr w c
    rw [Client.send, if_pos hclosed]
  · rw [if_neg hclosed]
    have hres : uv.write c (((w.modify c (·.log (.sendMessage m))).modify c
        (·.setState .sending)).clients c) = writeAnswer uv c m (w.clients c) := by
      rw [World.clients_modify_self, World.clients_modify_self]
      rfl
    rw [hres]
    by_cases hfail : writeAnswer uv c m (w.clients c) ≠ 0
    · rw [if_pos hfail, World.modify_modify, World.modify_modify, close_eq, World.modify_modify]
      · apply modify_congr w c
        rw [Client.send, if_neg hclosed, if_pos hfail]
        rfl
      · rw [World.clients_modify_self]
        exact Client.attached_uvWrite (k := ((w.clients c).log (.sendMessage m)).setState .sending) h
    · rw [if_neg hfail, World.modify_modify, World.modify_modify]
      apply modify_congr w c
      rw [Client.send, if_neg hclosed, if_neg hfail]
      rfl

theorem doRead_eq (h : (w.clients c).Attached) :
    (doRead uv c w).1 = w.modify c (Client.read (readAnswer uv c (w.clients c))) := by
  unfold doRead
  dsimp only
  have hres : uv.readStart c (((w.modify c fun k => k.assert .doRead
      (k.myState = .accepted || k.myState = .sent || k.myState = .sending ||
        k.myState = .receiving)).modify c (·.setState .receiving)).clients c) =
      readAnswer uv c (w.clients c) := by
    rw [World.clients_modify_self, World.clients_modify_self]
    rfl
  rw [hres]
  by_cases hfail : readAnswer uv c (w.clients c) < 0
  · rw [if_pos hfail, World.modify_modify, World.modify_modify, close_eq, World.modify_modify]
    · apply modify_congr w c
      rw [Client.read, if_pos hfail]
      rfl
    · rw [World.clients_modify_self]
      exact Client.attached_uvReadStart (Client.attached_assert (b := _) h)
  · rw [if_neg hfail, World.modify_modify, World.modify_modify]
    apply modify_congr w c
    rw [Client.read, if_neg hfail]
    rfl

end

end TcpUv
