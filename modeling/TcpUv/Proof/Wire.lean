import TcpUv.Proof.Conn
import TcpUv.Proof.Framing
import TcpUv.Proof.NodeRules

/-!
# Wire fidelity

The two ends put together. A connection that is not closing hands `uv_write` exactly the
frames of the messages it is asked to send (`written_sendMessages`), the frames of
messages with word fields split back into those messages (`segments_frames`), and the
receive loop is that split whatever the segmentation (`onReads_eq`), unless the app throws
on one of the messages (`receives_iff`).
-/

set_option autoImplicit false

namespace TcpUv

open Lib

/-! ## The apps leave inboxes alone -/

theorem hasInbox_scriptCalls {uv : Uv} {c : ClientId} {i : Str × List Message}
    (cs : List AppCall) : ∀ {w : World Script}, HasInbox c i w →
      HasInbox c i (Script.calls uv c cs w) := by
  have hI : Robust c (HasInbox (σ := Script) c i) := robust_hasInbox id
  induction cs with
  | nil => intro w h; exact h
  | cons a cs ih =>
    intro w h
    apply ih
    cases a with
    | reply m res => exact hI.sendMessage _ h.send
    | close => exact hI.close h
    | setCanonPeerAddr a => exact h.modify rfl

instance : KeepsInbox Script where
  connectionClosed h := h
  messageReceived _ _ h := hasInbox_scriptCalls _ h
  sendOtherPeers h := hasInbox_scriptCalls _ h

theorem takes_script (uv : Uv) (c : ClientId) (m : Message) : Takes (σ := Script) uv c m :=
  fun _ => ⟨_, rfl⟩

theorem hasInbox_connectionClosed {c d : ClientId} {i : Str × List Message} {w : NodeWorld}
    (h : HasInbox d i w) : HasInbox d i (NodeApp.connectionClosed c w) := by
  obtain ⟨hq, hnext, _, _⟩ := NodeApp.connectionClosed_spec c w
  exact ⟨hnext ▸ h.1, (hq d).inbox.trans h.2⟩

theorem hasInbox_tryCandidate {uv : Uv} {d : ClientId} {i : Str × List Message} {w : NodeWorld}
    (h : HasInbox d i w) (key : Str) : HasInbox d i (NodeApp.tryCandidate uv w key) := by
  refine ⟨Nat.lt_of_lt_of_le h.1 (NodeApp.next_tryCandidate uv w key), ?_⟩
  rw [NodeApp.clients_tryCandidate uv h.1]
  exact h.2

theorem robustNode_hasInbox (uv : Uv) (d : ClientId) (i : Str × List Message) :
    RobustNode uv (HasInbox d i) where
  quiet _ hf h := h.modify (hf _).inbox
  connectionClosed _ h := hasInbox_connectionClosed h
  greets _ _ h := h.send
  handshakeResponse _ h := h.send
  pingResponse _ _ h := h.send
  otherPeer _ _ _ h := h.send
  canonical _ _ _ _ _ h := h.modify rfl
  canonicalCandidate _ _ _ _ h := h
  candidate _ h := h
  tryCandidate _ h := hasInbox_tryCandidate h _

instance : KeepsInbox NodeApp where
  connectionClosed := hasInbox_connectionClosed
  messageReceived _ hm h := ((robustNode_hasInbox _ _ _).messageReceived hm ⟨h.1, h⟩).2
  sendOtherPeers h := ((robustNode_hasInbox _ _ _).sendOtherPeers ⟨h.1, h⟩).2

instance : KeepsInbox ClientApp where
  connectionClosed h := h
  messageReceived _ _ h := h
  sendOtherPeers h := h

theorem hasInbox_release {c d : ClientId} {i : Str × List Message} {w : World ServerApp}
    (h : HasInbox d i w) : HasInbox d i (ServerApp.release c w) := by
  unfold ServerApp.release
  split
  · exact h
  · exact h.log rfl

theorem hasInbox_connectionClosed_server {c d : ClientId} {i : Str × List Message}
    {w : World ServerApp} (h : HasInbox d i w) :
    HasInbox d i (ServerApp.connectionClosed c w) := by
  unfold ServerApp.connectionClosed
  split
  · exact h
  · exact hasInbox_release h

/-- The server takes every message: nothing it does with one can throw. -/
theorem takes_serverApp (uv : Uv) (c : ClientId) (m : Message) :
    Takes (σ := ServerApp) uv c m := by
  intro w
  cases m with
  | handshake myVersion yourAddr myAddr =>
    by_cases hv : myVersion ≠ textV01
    · exact ⟨_, if_pos hv⟩
    · exact ⟨_, if_neg hv⟩
  | ping text => exact ⟨_, rfl⟩
  | handshakeResponse myVersion myAddr yourAddr => exact ⟨_, rfl⟩
  | pingResponse text => exact ⟨_, rfl⟩
  | otherPeer host port => exact ⟨_, rfl⟩

theorem hasInbox_messageReceived_server {uv : Uv} {c : ClientId} {i : Str × List Message}
    {m : Message} {w : World ServerApp} (h : HasInbox c i w) :
    HasInbox c i (ServerApp.messageReceived uv c m w).world := by
  have hI : Robust c (HasInbox (σ := ServerApp) c i) :=
    robust_hasInbox hasInbox_connectionClosed_server
  cases m with
  | handshake myVersion yourAddr myAddr =>
    unfold ServerApp.messageReceived
    dsimp only
    split
    · exact hI.close h
    · exact hI.sendMessage _ h.send
  | ping text => exact hI.sendMessage _ h.send
  | handshakeResponse myVersion myAddr yourAddr => exact h.log rfl
  | pingResponse text => exact h.log rfl
  | otherPeer host port => exact h.log rfl

instance : KeepsInbox ServerApp where
  connectionClosed := hasInbox_connectionClosed_server
  messageReceived _ _ h := hasInbox_messageReceived_server h
  sendOtherPeers h := h

/-- … and so does the client program, which does nothing with any. -/
theorem takes_clientApp (uv : Uv) (c : ClientId) (m : Message) :
    Takes (σ := ClientApp) uv c m := fun _ => ⟨_, rfl⟩

/-! ## The receiving end -/

section

variable {σ : Type} [App σ] (uv : Uv) (c : ClientId)

/-- What becomes of a stream at the receiving end: the reads come to their end, the messages `ms`
    are handed over one after the other, and `rest` stays in the buffer. -/
def Receives (w : World σ) (chunks : List Str) (ms : List Message) (rest : Str) : Prop :=
  ∃ w', onReads uv c chunks w = .returns w' ∧
    (w'.clients c).delivered = (w.clients c).delivered ++ ms ∧
    (w'.clients c).myReceiveBuffer = rest

/-- Two ways of cutting `b` into reads come to the same: the parseable lines of the stream in
    order, and the bytes after its last terminator. -/
def SameFraming (w : World σ) (b : Str) (chunks chunks' : List Str) : Prop :=
  ∃ w₁ w₂, onReads uv c chunks w = .returns w₁ ∧ onReads uv c chunks' w = .returns w₂ ∧
    (w₁.clients c).delivered = (w₂.clients c).delivered ∧
    (w₁.clients c).myReceiveBuffer = (w₂.clients c).myReceiveBuffer ∧
    (w₁.clients c).delivered =
      (w.clients c).delivered ++ requests ((w.clients c).myReceiveBuffer ++ b) ∧
    (w₁.clients c).myReceiveBuffer = (segments '\n' ((w.clients c).myReceiveBuffer ++ b)).2

/-- A stream the framing is to cope with: nothing terminated is left over from before, it all
    stays below 2^31 bytes, and `stoi` takes the port of every `OPEER` line. -/
structure Feedable (w : World σ) (b : Str) : Prop where
  client : c < w.next
  leftover : '\n' ∉ (w.clients c).myReceiveBuffer
  short : ((w.clients c).myReceiveBuffer ++ b).length < 2 ^ 31
  opeer : ∀ line ∈ lines ((w.clients c).myReceiveBuffer ++ b),
    (words line).getD 0 [] = kwOpeer → 3 ≤ (words line).length →
      ∃ port, stoi ((words line).getD 2 []) = .ok port

variable {uv c}

theorem sameFraming_iff {w : World σ} {b : Str} {chunks chunks' : List Str} :
    SameFraming uv c w b chunks chunks' ↔
      ∀ cut ∈ [chunks, chunks'], Receives uv c w cut
        (requests ((w.clients c).myReceiveBuffer ++ b))
        (segments '\n' ((w.clients c).myReceiveBuffer ++ b)).2 := by
  simp only [List.forall_mem_cons, List.not_mem_nil, false_imp_iff, implies_true, and_true]
  constructor
  · rintro ⟨w₁, w₂, h₁, h₂, hms, hrest, hms₁, hrest₁⟩
    exact ⟨⟨w₁, h₁, hms₁, hrest₁⟩, w₂, h₂, hms.symm.trans hms₁, hrest.symm.trans hrest₁⟩
  · rintro ⟨⟨w₁, h₁, hms₁, hrest₁⟩, w₂, h₂, hms₂, hrest₂⟩
    exact ⟨w₁, w₂, h₁, h₂, hms₁.trans hms₂.symm, hrest₁.trans hrest₂.symm, hms₁, hrest₁⟩

omit [App σ] in
theorem Feedable.clean {w : World σ} {b : Str} (h : Feedable c w b) :
    CleanLines ((w.clients c).myReceiveBuffer ++ b) := by
  intro s hs
  have hlen := h.short
  have hshort := segment_length_lt hs
  exact ⟨by omega, lineOk_of_opeer (h.opeer s hs)⟩

variable [KeepsInbox σ] {I : World σ → Prop} (hI : Standing uv c I) {w : World σ}
  {chunks : List Str} (hw : I w) (hc : c < w.next)
  (hleft : '\n' ∉ (w.clients c).myReceiveBuffer) (hne : ∀ chunk ∈ chunks, chunk ≠ [])
  (hclean : CleanLines ((w.clients c).myReceiveBuffer ++ chunks.flatten))

include hI hw hc hleft hne hclean

theorem receives_of_takes
    (happ : ∀ m ∈ requests ((w.clients c).myReceiveBuffer ++ chunks.flatten),
      TakesIn uv c I m) :
    Receives uv c w chunks (requests ((w.clients c).myReceiveBuffer ++ chunks.flatten))
      (segments '\n' ((w.clients c).myReceiveBuffer ++ chunks.flatten)).2 := by
  have hin : HasInbox c ((w.clients c).myReceiveBuffer, (w.clients c).delivered) w := ⟨hc, rfl⟩
  obtain ⟨w', hw', hin'⟩ := onReads_eq hI hne hleft hin hw hclean happ
  exact ⟨w', hw', congrArg Prod.snd hin'.2, congrArg Prod.fst hin'.2⟩

/-- **The stream is received** exactly if the app throws on none of its messages: an exception
    leaves the read, and with it the loop. -/
theorem receives_iff
    (hboth : ∀ m ∈ requests ((w.clients c).myReceiveBuffer ++ chunks.flatten),
      TakesIn uv c I m ∨ ThrowsIn uv c I m) :
    Receives uv c w chunks (requests ((w.clients c).myReceiveBuffer ++ chunks.flatten))
        (segments '\n' ((w.clients c).myReceiveBuffer ++ chunks.flatten)).2 ↔
      ∀ m ∈ requests ((w.clients c).myReceiveBuffer ++ chunks.flatten),
        ¬ ThrowsIn uv c I m := by
  have hin : HasInbox c ((w.clients c).myReceiveBuffer, (w.clients c).delivered) w := ⟨hc, rfl⟩
  constructor
  · rintro ⟨w', hw', -, -⟩ m hm hthrows
    have hthrew := onReads_throws hI hne hleft hin hw hclean hboth ⟨m, hm, hthrows⟩
    rw [hw'] at hthrew
    cases hthrew
  · intro hno
    exact receives_of_takes hI hw hc hleft hne hclean fun m hm =>
      (hboth m hm).resolve_right (hno m hm)

end

section

variable {σ : Type} [App σ] [KeepsInbox σ] {uv : Uv} {c : ClientId}

/-- **Framing is independent of segmentation**, if the app returns from each message. -/
theorem onReads_segmentation {w : World σ} {b : Str} {chunks chunks' : List Str}
    (h : Feedable c w b) (hb : chunks.flatten = b) (hne : ∀ chunk ∈ chunks, chunk ≠ [])
    (hb' : chunks'.flatten = b) (hne' : ∀ chunk ∈ chunks', chunk ≠ [])
    (happ : ∀ m ∈ requests ((w.clients c).myReceiveBuffer ++ b), Takes (σ := σ) uv c m) :
    SameFraming uv c w b chunks chunks' := by
  refine sameFraming_iff.mpr fun cut hcut => ?_
  obtain ⟨rfl, hne⟩ : cut.flatten = b ∧ ∀ chunk ∈ cut, chunk ≠ [] := by
    rcases List.mem_pair.mp hcut with rfl | rfl
    · exact ⟨hb, hne⟩
    · exact ⟨hb', hne'⟩
  exact receives_of_takes (standing_true uv c) trivial h.client h.leftover hne h.clean
    fun m hm => (happ m hm).takesIn _

end

/-! ## The sending end -/

section

variable {τ : Type} [BaseApp τ] (uv : Uv) (d : ClientId)

/-- `sendMessage`, one message after the other. -/
def sendMessages (ms : List Message) (w : World τ) : World τ :=
  ms.foldl (fun w m => (sendMessage uv d m w).1) w

theorem written_sendMessage {w : World τ} (m : Message) (hopen : (w.clients d).IsOpen)
    (hok : ∀ k, uv.write d k = 0) :
    (((sendMessage uv d m w).1.clients d).IsOpen) ∧
      ((sendMessage uv d m w).1.clients d).written = (w.clients d).written ++ [frame m] := by
  have hstate : ¬ (((w.modify d (·.log (.sendMessage m))).clients d).myState = .closing ∨
      ((w.modify d (·.log (.sendMessage m))).clients d).myState = .closed) := by
    rw [World.clients_modify_self]
    exact fun h => h.elim hopen.1 hopen.2
  unfold sendMessage
  rw [if_neg hstate]
  simp only [hok, ne_eq, not_true_eq_false, if_false, World.clients_modify_self]
  refine ⟨⟨by simp [Client.uvWrite, Client.setState], by simp [Client.uvWrite, Client.setState]⟩, ?_⟩
  simp only [Client.written, Client.uvWrite, Client.setState, Client.log, List.filterMap_append,
    List.append_assoc]
  rfl

/-- **An open connection writes the frames of its messages**, in order. -/
theorem written_sendMessages (hok : ∀ k, uv.write d k = 0) : ∀ (ms : List Message)
    {w : World τ}, (w.clients d).IsOpen →
      ((sendMessages uv d ms w).clients d).written =
        (w.clients d).written ++ ms.map frame := by
  intro ms
  induction ms with
  | nil => intro w _; simp [sendMessages]
  | cons m ms ih =>
    intro w hopen
    obtain ⟨hopen', hw⟩ := written_sendMessage uv d m hopen hok
    have hrest := ih hopen'
    rw [hw, List.append_assoc, List.singleton_append] at hrest
    exact hrest

end

/-! ## Both ends -/

/-- The frames of messages with word fields split into those messages. -/
theorem segments_frames {ms : List Message} (hwf : ∀ m ∈ ms, m.WF) :
    segments '\n' (ms.map frame).flatten = (ms.map serialize, []) := by
  have hno : ∀ s ∈ ms.map serialize, '\n' ∉ s := by
    intro s hs
    obtain ⟨m, hm, rfl⟩ := List.mem_map.mp hs
    exact newline_not_mem_serialize (hwf m hm)
  have hframes := segments_flatMap hno
  rw [List.flatMap_map, List.flatMap_def] at hframes
  exact hframes

theorem filterMap_lineMessage_serialize {ms : List Message} (hwf : ∀ m ∈ ms, m.WF) :
    (ms.map serialize).filterMap lineMessage = ms := by
  induction ms with
  | nil => rfl
  | cons m ms ih =>
    have hm : lineMessage (serialize m) = some m := by
      rw [lineMessage, parseLine_serialize (hwf m (by simp))]
    rw [List.map_cons, List.filterMap_cons_some hm, ih fun m' hm' =>
      hwf m' (List.mem_cons_of_mem m hm')]

/-- What an open connection writes for a list of messages with word fields: a stream that splits
    into these messages, whatever reads it is cut into. -/
structure Stream (chunks : List Str) (ms : List Message) : Prop where
  messages : requests chunks.flatten = ms
  rest : (segments '\n' chunks.flatten).2 = []
  clean : CleanLines chunks.flatten

theorem stream_of_written {τ : Type} [BaseApp τ] {uv : Uv} {d : ClientId} {s : World τ}
    {ms : List Message} {frames chunks : List Str}
    (hwf : ∀ m ∈ ms, m.WF) (hlen : ∀ m ∈ ms, (frame m).length < 2 ^ 31)
    (hopen : (s.clients d).IsOpen) (hok : ∀ k, uv.write d k = 0)
    (hframes : ((sendMessages uv d ms s).clients d).written = (s.clients d).written ++ frames)
    (hchunks : chunks.flatten = frames.flatten) : Stream chunks ms := by
  rw [written_sendMessages uv d hok ms hopen] at hframes
  have hf : ms.map frame = frames := List.append_cancel_left hframes
  subst hf
  have hsplit : segments '\n' chunks.flatten = (ms.map serialize, []) := by
    rw [hchunks, segments_frames hwf]
  refine ⟨?_, congrArg Prod.snd hsplit, ?_⟩
  · rw [requests, lines, hsplit, filterMap_lineMessage_serialize hwf]
  · rw [CleanLines, lines, hsplit]
    intro line hline
    obtain ⟨m, hm, rfl⟩ := List.mem_map.mp hline
    have hshort := hlen m hm
    rw [frame, List.length_append, List.length_singleton] at hshort
    exact ⟨hshort, some m, parseLine_serialize (hwf m hm)⟩

/-- **Wire fidelity**, if the app at the other end returns from each message: it gets exactly
    these, in order, and its buffer is left empty. -/
theorem wire_fidelity {σ : Type} [App σ] [KeepsInbox σ] {uv : Uv} {c : ClientId} {r : World σ}
    {ms : List Message} {chunks : List Str} (hstream : Stream chunks ms)
    (hne : ∀ chunk ∈ chunks, chunk ≠ []) (hc : c < r.next)
    (hempty : (r.clients c).myReceiveBuffer = []) (happ : ∀ m ∈ ms, Takes (σ := σ) uv c m) :
    Receives uv c r chunks ms [] := by
  obtain ⟨rfl, hrest, hclean⟩ := hstream
  have hreceived := receives_of_takes (standing_true uv c) trivial hc
    (by simp [hempty]) hne (by simpa [hempty] using hclean)
    (by simpa [hempty] using fun m hm => (happ m hm).takesIn _)
  rwa [hempty, List.nil_append, hrest] at hreceived

end TcpUv
