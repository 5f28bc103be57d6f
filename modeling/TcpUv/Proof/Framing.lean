import TcpUv.Script
import TcpUv.Proof.Rules

/-!
# Framing — what a receiving connection hands to its app

The receive loop against `segments`: for every way the bytes may be cut into reads, the
messages handed over are the parseable lines of the whole stream, in order, and the
buffer is left holding what follows the last terminator (`onReads_eq`). That is as long as
the app returns from each message; the first on which it throws ends it (`onReads_throws`).
With the round trip of `Message.lean` this becomes wire fidelity: what `sendMessage` writes
on one end is what `messageReceived` gets on the other.

The loop reads the buffer again in every round, after an app has had control. That this
is harmless is the `HasInbox` half of the argument: `myReceiveBuffer` is a private
member, so nothing but the loop itself moves it.
-/

set_option autoImplicit false

namespace TcpUv

open Lib

/-! ## One line -/

/-- A buffer without a terminator yields no line: `npos` narrows to -1. -/
theorem cutLine_residue {s : Str} (hs : '\n' ∉ s) : cutLine s = .ok none := by
  unfold cutLine
  rw [find_of_not_mem hs]
  have hnpos : ¬ (0 : Int32) ≤ Int32.ofNat npos := by decide
  simp [hnpos]

/-- The terminator stands at an index of which an `int` keeps the low 32 bits. If these are a
    small number, it is there that the buffer is cut … -/
theorem cutLine_narrowed {s rest : Str} (hs : '\n' ∉ s)
    (hlow : s.length % 2 ^ 32 + 1 < 2 ^ 31) :
    cutLine (s ++ '\n' :: rest) =
      .ok (some ((s ++ '\n' :: rest).take (s.length % 2 ^ 32),
        (s ++ '\n' :: rest).drop (s.length % 2 ^ 32 + 1))) := by
  have hpos := (zero_le_ofNat_iff s.length).mpr (by omega)
  have hidx : toSizeT (Int32.ofNat s.length) = s.length % 2 ^ 32 := by
    rw [toSizeT_ofNat, if_pos (by omega)]
  have hnext : toSizeT (Int32.ofNat s.length + 1) = s.length % 2 ^ 32 + 1 := by
    rw [ofNat_succ, toSizeT_ofNat, if_pos (by omega)]
    omega
  have hwithin : s.length % 2 ^ 32 + 1 ≤ (s ++ '\n' :: rest).length := by
    simp only [List.length_append, List.length_cons]
    omega
  unfold cutLine
  rw [find_append hs]
  dsimp only
  rw [if_pos ⟨by omega, hpos⟩, hidx, hnext, substr, if_neg (by omega), substrFrom,
    if_neg (by omega)]
  rfl

/-- … if they are the largest `int`, the cut is there too, but `terminatorIdx + 1` overflows:
    undefined in the language, and negative where it wraps, so that what follows is looked for
    almost 2^64 bytes up … -/
theorem cutLine_edge {s rest : Str} (hs : '\n' ∉ s)
    (hedge : s.length % 2 ^ 32 + 1 = 2 ^ 31) :
    cutLine (s ++ '\n' :: rest) =
      (substrFrom (s ++ '\n' :: rest) (2 ^ 64 - 2 ^ 31)).map fun after =>
        some ((s ++ '\n' :: rest).take (2 ^ 31 - 1), after) := by
  have hpos := (zero_le_ofNat_iff s.length).mpr (by omega)
  have hidx : toSizeT (Int32.ofNat s.length) = 2 ^ 31 - 1 := by
    rw [toSizeT_ofNat, if_pos (by omega)]
    omega
  have hnext : toSizeT (Int32.ofNat s.length + 1) = 2 ^ 64 - 2 ^ 31 := by
    rw [ofNat_succ, toSizeT_ofNat, if_neg (by omega)]
    omega
  have hlen : 0 < (s ++ '\n' :: rest).length := by
    simp only [List.length_append, List.length_cons]
    omega
  unfold cutLine
  rw [find_append hs]
  dsimp only
  rw [if_pos ⟨hlen, hpos⟩, hidx, hnext, substr, if_neg (by omega)]
  cases substrFrom (s ++ '\n' :: rest) (2 ^ 64 - 2 ^ 31) <;> rfl

/-- … and if they are larger, they are a negative `int`: the line is not seen. -/
theorem cutLine_negative {s rest : Str} (hs : '\n' ∉ s)
    (hhigh : 2 ^ 31 ≤ s.length % 2 ^ 32) : cutLine (s ++ '\n' :: rest) = .ok none := by
  have hneg : ¬ (0 : Int32) ≤ Int32.ofNat s.length := by
    rw [zero_le_ofNat_iff]
    omega
  unfold cutLine
  rw [find_append hs]
  exact if_neg fun h => hneg h.2

/-- A terminated line is cut out whole, as long as its length fits an `int`. -/
theorem cutLine_line {s rest : Str} (hs : '\n' ∉ s) (hlen : s.length + 1 < 2 ^ 31) :
    cutLine (s ++ '\n' :: rest) = .ok (some (s, rest)) := by
  have hmod : s.length % 2 ^ 32 = s.length := Nat.mod_eq_of_lt (by omega)
  rw [cutLine_narrowed hs (by rw [hmod]; exact hlen), hmod]
  simp

/-- A line too long for an `int` is not seen: its index narrows to a negative one. -/
theorem cutLine_overflow {s rest : Str} (hs : '\n' ∉ s) (hlow : 2 ^ 31 ≤ s.length)
    (hhigh : s.length < 2 ^ 32) : cutLine (s ++ '\n' :: rest) = .ok none :=
  cutLine_negative hs (by rwa [Nat.mod_eq_of_lt hhigh])

/-- The message a line stands for, if it parses. -/
def lineMessage (line : Str) : Option Message :=
  match parseLine line with
  | .ok m => m
  | .error _ => none

/-- A line the parser ends on without an exception. -/
def LineOk (line : Str) : Prop := ∃ m, parseLine line = .ok m

/-- `stoi` is the parser's only exception, and it sees one token only. -/
theorem lineOk_of_opeer {line : Str}
    (h : (words line).getD 0 [] = kwOpeer → 3 ≤ (words line).length →
      ∃ p, stoi ((words line).getD 2 []) = .ok p) : LineOk line := by
  unfold LineOk parseLine parseMessage
  split
  · exact ⟨_, rfl⟩
  split
  · exact ⟨_, rfl⟩
  split
  · exact ⟨_, rfl⟩
  split
  · exact ⟨_, rfl⟩
  split
  · exact ⟨_, rfl⟩
  split
  · rename_i hop
    obtain ⟨p, hp⟩ := h hop.1 hop.2
    rw [hp]
    exact ⟨_, rfl⟩
  · exact ⟨_, rfl⟩

/-- The messages of a buffer that begins with a line. -/
theorem filterMap_line {s rest : Str} {om : Option Message} (hom : parseLine s = .ok om) :
    (s :: (segments '\n' rest).1).filterMap lineMessage =
      om.toList ++ (segments '\n' rest).1.filterMap lineMessage := by
  have hmsg : lineMessage s = om := by rw [lineMessage, hom]
  rw [List.filterMap_cons, hmsg]
  cases om <;> rfl

/-- The complete lines of a stream, and the messages of those that parse. -/
def lines (bytes : Str) : List Str := (segments '\n' bytes).1

def requests (bytes : Str) : List Message := (lines bytes).filterMap lineMessage

/-- Lines the parser does not throw on, with the terminator where a 32-bit index finds it. -/
def CleanLines (bytes : Str) : Prop :=
  ∀ line ∈ lines bytes, line.length + 1 < 2 ^ 31 ∧ LineOk line

/-! ## The inbox -/

/-- What arrived on a connection: the bytes not yet framed, the messages handed over. -/
def Client.inbox (k : Client) : Str × List Message := (k.myReceiveBuffer, k.delivered)

theorem Client.delivered_log (a : Act) (k : Client) :
    (k.log a).delivered = k.delivered ++ a.handedOver.toList := by
  simp only [delivered, log, List.filterMap_append]
  cases h : a.handedOver with
  | none => rw [List.filterMap_cons_none h]; rfl
  | some m => rw [List.filterMap_cons_some h]; rfl

theorem Client.inbox_log {a : Act} (ha : a.handedOver = none) (k : Client) :
    (k.log a).inbox = k.inbox := by
  rw [inbox, delivered_log, ha, Option.toList_none, List.append_nil]
  rfl

theorem Client.Quiet.inbox {k k' : Client} (h : k.Quiet k') : k'.inbox = k.inbox := by
  obtain ⟨l, hl, hq⟩ := h.acts
  have hnone : l.filterMap Act.handedOver = [] := by
    refine List.filterMap_eq_nil_iff.mpr fun a ha => ?_
    cases a with
    | messageReceived m => exact absurd (hq _ ha) (by simp [Act.isQuiet])
    | _ => rfl
  simp only [Client.inbox, Client.delivered, h.myReceiveBuffer, hl, List.filterMap_append,
    hnone, List.append_nil]

theorem Client.inbox_handOver (m : Message) (k : Client) :
    (k.handOver m).inbox = (k.inbox.1, k.inbox.2 ++ [m]) := by
  have hd : (k.setState .received).delivered = k.delivered :=
    congrArg Prod.snd (Client.Quiet.setState .received k).inbox
  rw [Client.handOver, Client.inbox, Client.delivered_log, hd]
  rfl

section

variable {σ : Type}

/-- The client exists, and this is its inbox. -/
def HasInbox (d : ClientId) (i : Str × List Message) (w : World σ) : Prop :=
  d < w.next ∧ (w.clients d).inbox = i

theorem HasInbox.modify {c d : ClientId} {i : Str × List Message} {w : World σ}
    {f : Client → Client} (hf : (f (w.clients c)).inbox = (w.clients c).inbox)
    (h : HasInbox d i w) : HasInbox d i (w.modify c f) := by
  refine ⟨h.1, ?_⟩
  rw [World.clients_modify]
  split
  · subst d
    exact hf.trans h.2
  · exact h.2

/-- A line cut from the buffer. -/
theorem HasInbox.cut {c : ClientId} {buffer : Str} {ms : List Message} {w : World σ}
    (h : HasInbox c (buffer, ms) w) (rest : Str) :
    HasInbox c (rest, ms) (w.modify c (Client.setReceiveBuffer rest)) := by
  refine ⟨h.1, ?_⟩
  have hms : (w.clients c).delivered = ms := congrArg Prod.snd h.2
  rw [World.clients_modify_self, ← hms]
  rfl

/-- The bytes of a read go behind what was left over. -/
theorem HasInbox.append {c : ClientId} {buffer : Str} {ms : List Message} {w : World σ}
    (hin : HasInbox c (buffer, ms) w) (chunk : Str) : HasInbox c (buffer ++ chunk, ms) (w.modify c fun k =>
      k.setReceiveBuffer (k.myReceiveBuffer ++ chunk.take (chunk.length : Int).toNat)) := by
  refine ⟨hin.1, ?_⟩
  have hb : (w.clients c).myReceiveBuffer = buffer := congrArg Prod.fst hin.2
  have hms : (w.clients c).delivered = ms := congrArg Prod.snd hin.2
  rw [World.clients_modify_self]
  simp only [Client.inbox, Int.toNat_natCast, List.take_length, hb, ← hms]
  rfl

/-- A message handed over. -/
theorem HasInbox.handOver {c : ClientId} {buffer : Str} {ms : List Message} {w : World σ}
    (h : HasInbox c (buffer, ms) w) (m : Message) :
    HasInbox c (buffer, ms ++ [m]) (w.modify c (Client.handOver m)) := by
  refine ⟨h.1, ?_⟩
  rw [World.clients_modify_self, Client.inbox_handOver, h.2]

theorem HasInbox.log {c d : ClientId} {i : Str × List Message} {w : World σ} {a : Act}
    (ha : a.handedOver = none) (h : HasInbox d i w) :
    HasInbox d i (w.modify c (·.log a)) :=
  h.modify (Client.inbox_log ha _)

theorem HasInbox.send {c d : ClientId} {i : Str × List Message} {w : World σ} {m : Message}
    (h : HasInbox d i w) : HasInbox d i (w.modify c (·.log (.sendMessage m))) :=
  h.log rfl

end

/-- An app under which the inbox of the client at hand stands still: what private members
    enforce. -/
class KeepsInbox (σ : Type) [App σ] : Prop where
  connectionClosed : ∀ {c : ClientId} {i : Str × List Message} {w : World σ},
    HasInbox c i w → HasInbox c i (BaseApp.connectionClosed c w)
  messageReceived : ∀ {c : ClientId} {i : Str × List Message} {m : Message} {w : World σ}
    (uv : Uv), m.WF → HasInbox c i w → HasInbox c i (App.messageReceived uv c m w).world
  sendOtherPeers : ∀ {uv : Uv} {c : ClientId} {i : Str × List Message} {w : World σ},
    HasInbox c i w → HasInbox c i (App.sendOtherPeers uv c w)

theorem robust_hasInbox {σ : Type} [BaseApp σ] {c d : ClientId} {i : Str × List Message}
    (happ : ∀ {w : World σ}, HasInbox d i w → HasInbox d i (BaseApp.connectionClosed c w)) :
    Robust c (HasInbox (σ := σ) d i) where
  quiet hf h := h.modify (hf _).inbox
  connectionClosed := happ
  greets _ h := h.send

/-! ## The receive loop -/

section

variable {σ : Type} [App σ] (uv : Uv) (c : ClientId)

/-- The app takes a message and returns: no exception leaves `messageReceived`. -/
def Takes (m : Message) : Prop :=
  ∀ w : World σ, ∃ w', App.messageReceived uv c m w = .returns w'

/-- A property that serving a connection keeps: what arrives is buffered, cut and handed over, the
    app has control, and so has `process()`. -/
structure Standing (I : World σ → Prop) : Prop where
  buffer : ∀ {w : World σ} (f : Client → Str), I w →
    I (w.modify c fun k => k.setReceiveBuffer (f k))
  handOver : ∀ {w : World σ} (m : Message), I w → I (w.modify c (Client.handOver m))
  messageReceived : ∀ {w : World σ} (m : Message), I w → I (App.messageReceived uv c m w).world
  process : ∀ {w : World σ}, I w → I (process uv c w)

theorem standing_true : Standing uv c (fun _ : World σ => True) :=
  ⟨fun _ _ => trivial, fun _ _ => trivial, fun _ _ => trivial, fun _ => trivial⟩

/-- While it holds, the app takes the message … -/
def TakesIn (I : World σ → Prop) (m : Message) : Prop :=
  ∀ w : World σ, I w → ∃ w', App.messageReceived uv c m w = .returns w'

/-- … or throws on it. -/
def ThrowsIn (I : World σ → Prop) (m : Message) : Prop :=
  ∀ w : World σ, I w → (App.messageReceived uv c m w).threw = true

variable {uv c} in
theorem Takes.takesIn {m : Message} (h : Takes (σ := σ) uv c m) (I : World σ → Prop) :
    TakesIn uv c I m := fun w _ => h w

theorem robustProcess_hasInbox [KeepsInbox σ] (i : Str × List Message) :
    RobustProcess uv c (HasInbox (σ := σ) c i) where
  toRobust := robust_hasInbox KeepsInbox.connectionClosed
  sendOtherPeers := KeepsInbox.sendOtherPeers

variable {uv c} {I : World σ → Prop} (hI : Standing uv c I)

include hI

/-- A turn on a line the app throws on ends the loop with the exception. -/
theorem loopTurn_throws {w : World σ} {s rest : Str} {ms : List Message} {m : Message}
    (hs : '\n' ∉ s) (hlen : s.length + 1 < 2 ^ 31) (hparse : parseLine s = .ok (some m))
    (happ : ThrowsIn uv c I m) (hin : HasInbox c (s ++ '\n' :: rest, ms) w) (hw : I w) :
    ∃ o, loopTurn uv c w = .exit o ∧ o.threw = true := by
  have hbuf : (w.clients c).myReceiveBuffer = s ++ '\n' :: rest := congrArg Prod.fst hin.2
  have hthrew := happ _ (hI.handOver m (hI.buffer (fun _ => rest) hw))
  rw [loopTurn, hbuf, cutLine_line hs hlen]
  dsimp only
  rw [hparse]
  dsimp only
  change (App.messageReceived uv c m ((w.modify c (Client.setReceiveBuffer rest)).modify c
    (Client.handOver m))).threw = true at hthrew
  cases hgot : App.messageReceived uv c m
      ((w.modify c (Client.setReceiveBuffer rest)).modify c (Client.handOver m)) with
  | returns w' =>
    rw [hgot] at hthrew
    cases hthrew
  | throws e w' => exact ⟨_, rfl, rfl⟩

variable [KeepsInbox σ]

/-- One turn of the loop on a buffer that begins with a line: the line is gone, and what it
    parses to is handed over. The app in between leaves the rest alone. -/
theorem loopTurn_line {w : World σ} {s rest : Str} {ms : List Message} {om : Option Message}
    (hs : '\n' ∉ s) (hlen : s.length + 1 < 2 ^ 31) (hparse : parseLine s = .ok om)
    (happ : ∀ m ∈ om, TakesIn uv c I m) (hin : HasInbox c (s ++ '\n' :: rest, ms) w) (hw : I w) :
    ∃ w', loopTurn uv c w = .again w' ∧ HasInbox c (rest, ms ++ om.toList) w' ∧ I w' := by
  have hbuf : (w.clients c).myReceiveBuffer = s ++ '\n' :: rest := congrArg Prod.fst hin.2
  have hrest := hin.cut rest
  have hwrest := hI.buffer (fun _ => rest) hw
  rw [loopTurn, hbuf, cutLine_line hs hlen]
  dsimp only
  rw [hparse]
  cases om with
  | none => exact ⟨_, rfl, by rwa [Option.toList_none, List.append_nil], hwrest⟩
  | some m =>
    have hgiven := hI.handOver m hwrest
    obtain ⟨w', hw'⟩ := happ m rfl _ hgiven
    have hafter := KeepsInbox.messageReceived uv (wf_of_parseLine hparse) (hrest.handOver m)
    have hwafter := hI.messageReceived m hgiven
    rw [hw'] at hafter hwafter
    dsimp only
    rw [show App.messageReceived uv c m ((w.modify c (Client.setReceiveBuffer rest)).modify c
      (Client.handOver m)) = .returns w' from hw']
    exact ⟨w', rfl, hafter, hwafter⟩

/-- **The loop is the split of the buffer at its terminators.** Induction on the fuel: a
    turn removes the first segment. -/
theorem receiveLoop_eq : ∀ (fuel : Nat) {w : World σ} {buffer : Str} {ms : List Message},
    buffer.length ≤ fuel → HasInbox c (buffer, ms) w → I w →
    (∀ s ∈ (segments '\n' buffer).1, s.length + 1 < 2 ^ 31 ∧ LineOk s) →
    (∀ m ∈ (segments '\n' buffer).1.filterMap lineMessage, TakesIn uv c I m) →
    ∃ w', receiveLoop uv c fuel w = .returns w' ∧
      HasInbox c ((segments '\n' buffer).2,
        ms ++ (segments '\n' buffer).1.filterMap lineMessage) w' ∧ I w' := by
  intro fuel
  induction fuel with
  | zero =>
    intro w buffer ms hfuel hin hw _ _
    have hnil : buffer = [] := List.length_eq_zero_iff.mp (Nat.le_zero.mp hfuel)
    subst hnil
    exact ⟨w, rfl, by simpa using hin, hw⟩
  | succ fuel ih =>
    intro w buffer ms hfuel hin hw hline happ
    have hbuf : (w.clients c).myReceiveBuffer = buffer := congrArg Prod.fst hin.2
    rw [receiveLoop_succ]
    rcases split_first '\n' buffer with hno | ⟨s, rest, rfl, hs⟩
    · rw [loopTurn, hbuf, cutLine_residue hno]
      refine ⟨w, rfl, ?_, hw⟩
      simpa [segments_of_not_mem hno] using hin
    · rw [segments_line hs] at hline happ ⊢
      obtain ⟨hlen, om, hom⟩ := hline s (by simp)
      have hfuel' : rest.length ≤ fuel := by
        simp only [List.length_append, List.length_cons] at hfuel
        omega
      dsimp only at happ ⊢
      rw [filterMap_line hom] at happ ⊢
      obtain ⟨w', hturn, hin', hw'⟩ := loopTurn_line hI hs hlen hom
        (fun m hm => happ m (List.mem_append_left _ (Option.mem_toList.mpr hm))) hin hw
      obtain ⟨w'', hloop, hin'', hw''⟩ := ih hfuel' hin' hw'
        (fun t ht => hline t (List.mem_cons_of_mem s ht))
        fun m hm => happ m (List.mem_append_right _ hm)
      refine ⟨w'', ?_, ?_, hw''⟩
      · rw [hturn]
        exact hloop
      · rw [← List.append_assoc]
        exact hin''

/-- **The loop ends in an exception** if the app throws on one of the messages, whatever it does
    with those before. Induction as above, split at the first segment: its message is that one,
    or the app takes it. -/
theorem receiveLoop_throws : ∀ (fuel : Nat) {w : World σ} {buffer : Str} {ms : List Message},
    buffer.length ≤ fuel → HasInbox c (buffer, ms) w → I w →
    (∀ s ∈ (segments '\n' buffer).1, s.length + 1 < 2 ^ 31 ∧ LineOk s) →
    (∀ m ∈ (segments '\n' buffer).1.filterMap lineMessage,
      TakesIn uv c I m ∨ ThrowsIn uv c I m) →
    (∃ m ∈ (segments '\n' buffer).1.filterMap lineMessage, ThrowsIn uv c I m) →
    (receiveLoop uv c fuel w).threw = true := by
  intro fuel
  induction fuel with
  | zero =>
    intro w buffer ms hfuel _ _ _ _ hthrows
    have hnil : buffer = [] := List.length_eq_zero_iff.mp (Nat.le_zero.mp hfuel)
    subst hnil
    obtain ⟨m, hm, -⟩ := hthrows
    cases hm
  | succ fuel ih =>
    intro w buffer ms hfuel hin hw hline hboth hthrows
    rw [receiveLoop_succ]
    rcases split_first '\n' buffer with hno | ⟨s, rest, rfl, hs⟩
    · rw [segments_of_not_mem hno] at hthrows
      obtain ⟨m, hm, -⟩ := hthrows
      cases hm
    · rw [segments_line hs] at hline hboth hthrows
      obtain ⟨hlen, om, hom⟩ := hline s (by simp)
      have hfuel' : rest.length ≤ fuel := by
        simp only [List.length_append, List.length_cons] at hfuel
        omega
      dsimp only at hboth hthrows
      rw [filterMap_line hom] at hboth hthrows
      by_cases hfirst : ∃ m ∈ om, ThrowsIn uv c I m
      · obtain ⟨m, rfl, hm⟩ := hfirst
        obtain ⟨o, hturn, ho⟩ := loopTurn_throws hI hs hlen hom hm hin hw
        rw [hturn]
        exact ho
      · have htakes : ∀ m ∈ om, TakesIn uv c I m := fun m hm =>
          (hboth m (List.mem_append_left _ (Option.mem_toList.mpr hm))).resolve_right
            fun h => hfirst ⟨m, hm, h⟩
        obtain ⟨w', hturn, hin', hw'⟩ := loopTurn_line hI hs hlen hom htakes hin hw
        rw [hturn]
        refine ih hfuel' hin' hw' (fun t ht => hline t (List.mem_cons_of_mem s ht))
          (fun m hm => hboth m (List.mem_append_right _ hm)) ?_
        obtain ⟨m, hm, hthrow⟩ := hthrows
        rcases List.mem_append.mp hm with hm | hm
        · exact absurd ⟨m, Option.mem_toList.mp hm, hthrow⟩ hfirst
        · exact ⟨m, hm, hthrow⟩

theorem doProcessReceivedBuffer_eq {w : World σ} {buffer : Str} {ms : List Message}
    (hin : HasInbox c (buffer, ms) w) (hw : I w)
    (hline : ∀ s ∈ (segments '\n' buffer).1, s.length + 1 < 2 ^ 31 ∧ LineOk s)
    (happ : ∀ m ∈ (segments '\n' buffer).1.filterMap lineMessage, TakesIn uv c I m) :
    ∃ w', doProcessReceivedBuffer uv c w = .returns w' ∧
      HasInbox c ((segments '\n' buffer).2,
        ms ++ (segments '\n' buffer).1.filterMap lineMessage) w' ∧ I w' := by
  have hbuf : (w.clients c).myReceiveBuffer = buffer := congrArg Prod.fst hin.2
  unfold doProcessReceivedBuffer
  rw [hbuf]
  exact receiveLoop_eq hI _ le_rfl hin hw hline happ

/-- One read: the bytes are appended, and the loop has them from there. -/
theorem onRead_appended {w : World σ} {buffer chunk : Str} {ms : List Message}
    {i : Str × List Message} (hne : chunk ≠ []) (hin : HasInbox c (buffer, ms) w) (hw : I w)
    (hloop : ∀ w₁ : World σ, HasInbox c (buffer ++ chunk, ms) w₁ → I w₁ →
      ∃ w', doProcessReceivedBuffer uv c w₁ = .returns w' ∧ HasInbox c i w' ∧ I w') :
    ∃ w', onRead uv c chunk.length (some chunk) w = .returns w' ∧ HasInbox c i w' ∧ I w' := by
  have hpos : (0 : Int) < chunk.length := Int.natCast_pos.mpr (List.length_pos_iff.mpr hne)
  obtain ⟨w', hend, hin', hw'⟩ := hloop _ (hin.append chunk) (hI.buffer _ hw)
  rw [onRead_data uv hpos, hend]
  exact ⟨_, rfl, (robustProcess_hasInbox uv c _).process hin', hI.process hw'⟩

theorem onRead_eq {w : World σ} {buffer chunk : Str} {ms : List Message} (hne : chunk ≠ [])
    (hin : HasInbox c (buffer, ms) w) (hw : I w)
    (hline : ∀ s ∈ (segments '\n' (buffer ++ chunk)).1, s.length + 1 < 2 ^ 31 ∧ LineOk s)
    (happ : ∀ m ∈ (segments '\n' (buffer ++ chunk)).1.filterMap lineMessage,
      TakesIn uv c I m) :
    ∃ w', onRead uv c chunk.length (some chunk) w = .returns w' ∧
      HasInbox c ((segments '\n' (buffer ++ chunk)).2,
        ms ++ (segments '\n' (buffer ++ chunk)).1.filterMap lineMessage) w' ∧ I w' :=
  onRead_appended hI hne hin hw fun _ h hw₁ => doProcessReceivedBuffer_eq hI h hw₁ hline happ

theorem onRead_throws {w : World σ} {buffer chunk : Str} {ms : List Message} (hne : chunk ≠ [])
    (hin : HasInbox c (buffer, ms) w) (hw : I w)
    (hline : ∀ s ∈ (segments '\n' (buffer ++ chunk)).1, s.length + 1 < 2 ^ 31 ∧ LineOk s)
    (hboth : ∀ m ∈ (segments '\n' (buffer ++ chunk)).1.filterMap lineMessage,
      TakesIn uv c I m ∨ ThrowsIn uv c I m)
    (hthrows : ∃ m ∈ (segments '\n' (buffer ++ chunk)).1.filterMap lineMessage,
      ThrowsIn uv c I m) :
    (onRead uv c chunk.length (some chunk) w).threw = true := by
  have hpos : (0 : Int) < chunk.length := Int.natCast_pos.mpr (List.length_pos_iff.mpr hne)
  have hin₁ := hin.append chunk
  rw [onRead_data uv hpos, doProcessReceivedBuffer]
  have hfuel := Nat.le_of_eq (congrArg List.length (congrArg Prod.fst hin₁.2).symm)
  exact Outcome.threw_andThen
    (receiveLoop_throws hI _ hfuel hin₁ (hI.buffer _ hw) hline hboth hthrows) _

end

section

variable {σ : Type} [App σ] (uv : Uv) (c : ClientId)

/-- Reads, one chunk after the other. -/
def onReads : List Str → World σ → Outcome σ
  | [], w => .returns w
  | chunk :: chunks, w =>
      (onRead uv c chunk.length (some chunk) w).andThen (onReads chunks)

variable {uv c} [KeepsInbox σ] {I : World σ → Prop} (hI : Standing uv c I)

include hI

/-- **Segmentation does not matter**: over any cutting of the stream, the messages handed
    over and the bytes left are those of the whole stream. Induction on the chunks, the
    residue carried along. -/
theorem onReads_eq : ∀ {chunks : List Str} {w : World σ} {buffer : Str} {ms : List Message},
    (∀ chunk ∈ chunks, chunk ≠ []) → '\n' ∉ buffer → HasInbox c (buffer, ms) w → I w →
    (∀ s ∈ (segments '\n' (buffer ++ chunks.flatten)).1, s.length + 1 < 2 ^ 31 ∧ LineOk s) →
    (∀ m ∈ (segments '\n' (buffer ++ chunks.flatten)).1.filterMap lineMessage,
      TakesIn uv c I m) →
    ∃ w', onReads uv c chunks w = .returns w' ∧
      HasInbox c ((segments '\n' (buffer ++ chunks.flatten)).2,
        ms ++ (segments '\n' (buffer ++ chunks.flatten)).1.filterMap lineMessage) w' := by
  intro chunks
  induction chunks with
  | nil =>
    intro w buffer ms _ hbuf hin _ _ _
    refine ⟨w, rfl, ?_⟩
    simpa [segments_of_not_mem hbuf] using hin
  | cons chunk chunks ih =>
    intro w buffer ms hne hbuf hin hw hline happ
    have hcut := segments_append '\n' (buffer ++ chunk) chunks.flatten
    rw [List.append_assoc] at hcut
    rw [List.flatten_cons] at hline happ ⊢
    rw [hcut] at hline happ ⊢
    rw [List.filterMap_append] at happ ⊢
    obtain ⟨w', hread, hin', hw'⟩ := onRead_eq hI (hne chunk (by simp)) hin hw
      (fun s hs => hline s (List.mem_append_left _ hs))
      fun m hm => happ m (List.mem_append_left _ hm)
    obtain ⟨w'', hreads, hin''⟩ := ih (fun b hb => hne b (List.mem_cons_of_mem chunk hb))
      (residue_not_mem '\n' (buffer ++ chunk)) hin' hw'
      (fun s hs => hline s (List.mem_append_right _ hs))
      fun m hm => happ m (List.mem_append_right _ hm)
    refine ⟨w'', ?_, ?_⟩
    · rw [onReads, hread]
      exact hreads
    · rw [← List.append_assoc]
      exact hin''

/-- … and over any cutting the reads end in an exception, if the app throws on one of the
    messages: the read that completes its line does. -/
theorem onReads_throws : ∀ {chunks : List Str} {w : World σ} {buffer : Str} {ms : List Message},
    (∀ chunk ∈ chunks, chunk ≠ []) → '\n' ∉ buffer → HasInbox c (buffer, ms) w → I w →
    (∀ s ∈ (segments '\n' (buffer ++ chunks.flatten)).1, s.length + 1 < 2 ^ 31 ∧ LineOk s) →
    (∀ m ∈ (segments '\n' (buffer ++ chunks.flatten)).1.filterMap lineMessage,
      TakesIn uv c I m ∨ ThrowsIn uv c I m) →
    (∃ m ∈ (segments '\n' (buffer ++ chunks.flatten)).1.filterMap lineMessage,
      ThrowsIn uv c I m) →
    (onReads uv c chunks w).threw = true := by
  intro chunks
  induction chunks with
  | nil =>
    intro w buffer ms _ hbuf _ _ _ _ hthrows
    rw [List.flatten_nil, List.append_nil, segments_of_not_mem hbuf] at hthrows
    obtain ⟨m, hm, -⟩ := hthrows
    cases hm
  | cons chunk chunks ih =>
    intro w buffer ms hne hbuf hin hw hline hboth hthrows
    have hcut := segments_append '\n' (buffer ++ chunk) chunks.flatten
    rw [List.append_assoc] at hcut
    rw [List.flatten_cons, hcut] at hline hboth hthrows
    rw [List.filterMap_append] at hboth hthrows
    have hlines := fun s hs => hline s (List.mem_append_left _ hs)
    have hfirst := fun m hm => hboth m (List.mem_append_left _ hm)
    rw [onReads]
    by_cases hnow : ∃ m ∈ (segments '\n' (buffer ++ chunk)).1.filterMap lineMessage,
        ThrowsIn uv c I m
    · exact Outcome.threw_andThen
        (onRead_throws hI (hne chunk (by simp)) hin hw hlines hfirst hnow) _
    · obtain ⟨w', hread, hin', hw'⟩ := onRead_eq hI (hne chunk (by simp)) hin hw hlines
        fun m hm => (hfirst m hm).resolve_right fun h => hnow ⟨m, hm, h⟩
      rw [hread]
      refine ih (fun b hb => hne b (List.mem_cons_of_mem chunk hb))
        (residue_not_mem '\n' (buffer ++ chunk)) hin' hw'
        (fun s hs => hline s (List.mem_append_right _ hs))
        (fun m hm => hboth m (List.mem_append_right _ hm)) ?_
      obtain ⟨m, hm, hthrow⟩ := hthrows
      rcases List.mem_append.mp hm with hm | hm
      · exact absurd ⟨m, hm, hthrow⟩ hnow
      · exact ⟨m, hm, hthrow⟩

end

end TcpUv
