import TcpUv.Lib.Loop
import TcpUv.Proof.Wire

/-!
# The terminator's index

`find` answers with a `size_t`, the receive loop keeps the answer in an `int`, and the sign
of that `int` is both "not found" and the end of the loop. This file is what becomes of a
buffer of any length: one cut by the low 32 bits of the index (`cutLine_narrowed` and its
neighbours, `cutOk_line_iff`), then the loop as `Lib/Loop`'s, turn by turn.

The loop ends whatever the buffer (`receive_ends`): even a wrong cut leaves less than
there was. Its cuts are right exactly as long as every line it comes to fits an `int` with
room for the terminator (`LinesFit`).
-/

set_option autoImplicit false

namespace TcpUv

open Lib

/-! ## One cut -/

/-- The cut is the one at the first terminator, if there is one. -/
def CutOk (buffer : Str) : Prop := cutLine buffer = .ok (firstSegment '\n' buffer)

theorem cutOk_residue {s : Str} (hs : '\n' ∉ s) : CutOk s := by
  rw [CutOk, cutLine_residue hs, firstSegment_of_not_mem hs]

/-- Where a line was cut: by the low 32 bits of its terminator's index, or with these at the
    largest `int` and the buffer almost 2^64 bytes long. -/
theorem cutLine_inv {s rest line after : Str} (hs : '\n' ∉ s)
    (h : cutLine (s ++ '\n' :: rest) = .ok (some (line, after))) :
    (s.length % 2 ^ 32 + 1 < 2 ^ 31 ∧ line = (s ++ '\n' :: rest).take (s.length % 2 ^ 32) ∧
        after = (s ++ '\n' :: rest).drop (s.length % 2 ^ 32 + 1)) ∨
      (s.length % 2 ^ 32 + 1 = 2 ^ 31 ∧ 2 ^ 64 - 2 ^ 31 ≤ (s ++ '\n' :: rest).length ∧
        line = (s ++ '\n' :: rest).take (2 ^ 31 - 1) ∧
        after = (s ++ '\n' :: rest).drop (2 ^ 64 - 2 ^ 31)) := by
  rcases Nat.lt_trichotomy (s.length % 2 ^ 32 + 1) (2 ^ 31) with hlow | hedge | hhigh
  · rw [cutLine_narrowed hs hlow] at h
    obtain ⟨hline, hafter⟩ := Prod.mk.inj (Option.some.inj (Except.ok.inj h))
    exact Or.inl ⟨hlow, hline.symm, hafter.symm⟩
  · rw [cutLine_edge hs hedge, substrFrom] at h
    split at h
    · cases h
    · rename_i hlen
      obtain ⟨hline, hafter⟩ := Prod.mk.inj (Option.some.inj (Except.ok.inj h))
      exact Or.inr ⟨hedge, Nat.not_lt.mp hlen, hline.symm, hafter.symm⟩
  · rw [cutLine_negative hs (by omega)] at h
    cases h

/-- **One cut is right exactly below the largest `int`**: above it, what is cut is shorter than
    the line; at it, what is left is not what follows. -/
theorem cutOk_line_iff {s rest : Str} (hs : '\n' ∉ s) :
    CutOk (s ++ '\n' :: rest) ↔ s.length + 1 < 2 ^ 31 := by
  rw [CutOk, firstSegment_line hs]
  refine ⟨fun h => ?_, cutLine_line hs⟩
  have htotal : (s ++ '\n' :: rest).length = s.length + (rest.length + 1) := by
    rw [List.length_append, List.length_cons]
  rcases cutLine_inv hs h with ⟨hlow, hline, -⟩ | ⟨hedge, hlen, hline, hafter⟩
  · have hcut := congrArg List.length hline
    rw [List.length_take] at hcut
    omega
  · have hcut := congrArg List.length hline
    have hleft := congrArg List.length hafter
    rw [List.length_take] at hcut
    rw [List.length_drop] at hleft
    omega

/-- Right or wrong, a cut leaves less than there was. -/
theorem cutLine_shorter {buffer line rest : Str} (h : cutLine buffer = .ok (some (line, rest))) :
    rest.length < buffer.length := by
  rcases split_first '\n' buffer with hno | ⟨s, after, rfl, hs⟩
  · rw [cutLine_residue hno] at h
    cases h
  · have htotal : 0 < (s ++ '\n' :: after).length := by
      rw [List.length_append, List.length_cons]
      omega
    rcases cutLine_inv hs h with ⟨-, -, rfl⟩ | ⟨-, -, -, rfl⟩
    · rw [List.length_drop]
      omega
    · rw [List.length_drop]
      omega

/-! ## The lines the loop comes to -/

/-- Every line that comes up before one the parser throws on fits an `int`, its terminator
    included. -/
def LinesFit (buffer : Str) : Prop :=
  ∀ before s after, (segments '\n' buffer).1 = before ++ s :: after →
    (∀ t ∈ before, LineOk t) → s.length + 1 < 2 ^ 31

theorem linesFit_residue {s : Str} (hs : '\n' ∉ s) : LinesFit s := by
  intro before t after h
  rw [segments_of_not_mem hs] at h
  simp at h

theorem linesFit_line {s rest : Str} (hs : '\n' ∉ s) :
    LinesFit (s ++ '\n' :: rest) ↔
      s.length + 1 < 2 ^ 31 ∧ (LineOk s → LinesFit rest) := by
  unfold LinesFit
  rw [segments_line hs]
  dsimp only
  constructor
  · intro h
    refine ⟨h [] s _ rfl (by simp), fun hok before t after heq hbefore => ?_⟩
    refine h (s :: before) t after (by rw [heq]; rfl) fun u hu => ?_
    rcases List.mem_cons.mp hu with rfl | hu
    · exact hok
    · exact hbefore u hu
  · rintro ⟨hfits, hrest⟩ before t after heq hbefore
    cases before with
    | nil =>
      obtain rfl := (List.cons.inj heq).1
      exact hfits
    | cons u before =>
      obtain ⟨rfl, htail⟩ := List.cons.inj heq
      exact hrest (hbefore s (by simp)) before t after htail
        fun v hv => hbefore v (List.mem_cons_of_mem s hv)

/-- Where all lines fit, the cut is right. -/
theorem LinesFit.cutOk {buffer : Str} (h : LinesFit buffer) : CutOk buffer := by
  rcases split_first '\n' buffer with hno | ⟨s, rest, rfl, hs⟩
  · exact cutOk_residue hno
  · exact (cutOk_line_iff hs).mpr ((linesFit_line hs).mp h).1

/-! ## The loop, turn by turn -/

section

variable {σ : Type}

/-- The client exists, and these bytes are in its receive buffer. -/
def HasBuffer (c : ClientId) (buffer : Str) (w : World σ) : Prop :=
  c < w.next ∧ (w.clients c).myReceiveBuffer = buffer

theorem HasBuffer.hasInbox {c : ClientId} {b : Str} {w : World σ} (h : HasBuffer c b w) :
    HasInbox c (b, (w.clients c).delivered) w := ⟨h.1, congrArg (·, (w.clients c).delivered) h.2⟩

theorem HasInbox.hasBuffer {c : ClientId} {i : Str × List Message} {w : World σ}
    (h : HasInbox c i w) : HasBuffer c i.1 w := ⟨h.1, congrArg Prod.fst h.2⟩

variable [App σ] [KeepsInbox σ] {uv : Uv} {c : ClientId} {b : Str} {w w' : World σ}

/-- What a turn that goes round does: it cuts a line the parser is content with, and leaves
    the rest in the buffer, whatever the app does in between. -/
theorem loopTurn_again (h : HasBuffer c b w) (hturn : loopTurn uv c w = .again w') :
    ∃ line rest, cutLine b = .ok (some (line, rest)) ∧ LineOk line ∧ HasBuffer c rest w' := by
  have hin := h.hasInbox
  obtain ⟨-, rfl⟩ := h
  have htaken := turnTaken_loopTurn uv c w
  rw [hturn] at htaken
  cases htaken with
  | @skipped line rest hcut hline =>
    exact ⟨line, rest, hcut, ⟨none, hline⟩, (hin.cut rest).hasBuffer⟩
  | @taken line rest m _ hcut hline hgot =>
    have hafter := KeepsInbox.messageReceived uv (wf_of_parseLine hline)
      ((hin.cut rest).handOver m)
    rw [hgot] at hafter
    exact ⟨line, rest, hcut, ⟨some m, hline⟩, hafter.hasBuffer⟩

/-- **The loop ends**, with what `doProcessReceivedBuffer` gives and with nothing else: every
    turn that goes round leaves less in the buffer. -/
theorem receive_ends (h : HasBuffer c b w) (o : Outcome σ) :
    Turn.Ends (loopTurn uv c) w o ↔ o = doProcessReceivedBuffer uv c w := by
  have hends : Turn.Ends (loopTurn uv c) w (doProcessReceivedBuffer uv c w) := by
    rw [doProcessReceivedBuffer, receiveLoop_eq_run]
    refine Turn.ends_run (I := fun w => c < w.next)
      (fun w => (w.clients c).myReceiveBuffer.length) (fun v v' hv hturn => ?_)
      (fun v _ hempty => ?_) _ h.1 le_rfl
    · obtain ⟨line, rest, hcut, -, hbuffer⟩ := loopTurn_again ⟨hv, rfl⟩ hturn
      exact ⟨hbuffer.1, by rw [hbuffer.2]; exact cutLine_shorter hcut⟩
    · rw [loopTurn, List.length_eq_zero_iff.mp hempty, cutLine_residue List.not_mem_nil]
  exact ⟨fun ho => ho.unique hends, fun ho => ho ▸ hends⟩

/-! ## Every cut of a buffer -/

variable (uv c) in
/-- Wherever the loop comes to, the cut it takes next is right. -/
def CutsExactly (w : World σ) : Prop :=
  ∀ w', Turn.Comes (loopTurn uv c) w w' → CutOk (w'.clients c).myReceiveBuffer

theorem cutsExactly_of_linesFit (h : HasBuffer c b w) (hfit : LinesFit b) :
    CutsExactly uv c w := by
  intro w' hcomes
  have hinv : ∃ b', HasBuffer c b' w' ∧ LinesFit b' := by
    refine hcomes.invariant (I := fun v => ∃ b', HasBuffer c b' v ∧ LinesFit b')
      ⟨b, h, hfit⟩ ?_
    rintro v v' ⟨b', hb', hfit'⟩ hturn
    obtain ⟨line, rest, hcut, hok, hrest⟩ := loopTurn_again hb' hturn
    have hfirst := Except.ok.inj (hfit'.cutOk.symm.trans hcut)
    obtain ⟨rfl, hline⟩ := firstSegment_eq_some.mp hfirst
    exact ⟨rest, hrest, ((linesFit_line hline).mp hfit').2 hok⟩
  obtain ⟨b', hb', hfit'⟩ := hinv
  rw [hb'.2]
  exact hfit'.cutOk

/-- Induction on the length of the buffer: the first cut being right, its line fits, and the
    loop comes to what follows it. -/
theorem linesFit_of_cutsExactly (htakes : ∀ m, Takes (σ := σ) uv c m) (h : HasBuffer c b w)
    (hcuts : CutsExactly uv c w) : LinesFit b := by
  induction hn : b.length using Nat.strongRecOn generalizing b w with
  | ind n ih =>
    subst hn
    rcases split_first '\n' b with hno | ⟨s, rest, rfl, hs⟩
    · exact linesFit_residue hno
    · have hfirst := hcuts w (.refl w)
      rw [h.2, cutOk_line_iff hs] at hfirst
      refine (linesFit_line hs).mpr ⟨hfirst, fun hok => ?_⟩
      obtain ⟨om, hom⟩ := hok
      obtain ⟨w', hturn, hrest, -⟩ := loopTurn_line (standing_true uv c) hs hfirst hom
        (fun m _ => (htakes m).takesIn _) h.hasInbox trivial
      exact ih rest.length (cutLine_shorter (cutLine_line hs hfirst)) hrest.hasBuffer
        (fun v hv => hcuts v (hv.after hturn)) rfl

/-! ## A line the loop never sees -/

/-- No part of a stream whose first line is that long is ever cut. -/
theorem cutLine_unseen {s rest p : Str} (hs : '\n' ∉ s) (hhigh : 2 ^ 31 ≤ s.length % 2 ^ 32)
    (hp : p <+: s ++ '\n' :: rest) : cutLine p = .ok none := by
  rcases List.prefix_or_prefix_of_prefix hp (List.prefix_append s ('\n' :: rest)) with h | h
  · exact cutLine_residue fun hmem => hs (h.subset hmem)
  · obtain ⟨t, rfl⟩ := h
    have ht := (List.prefix_append_right_inj s).mp hp
    cases t with
    | nil => exact cutLine_residue (by rwa [List.append_nil])
    | cons a t =>
      obtain ⟨rfl, -⟩ := List.cons_prefix_cons.mp ht
      exact cutLine_negative hs hhigh

theorem onRead_unseen {buffer chunk : Str} {ms : List Message} (hne : chunk ≠ [])
    (hin : HasInbox c (buffer, ms) w) (hcut : cutLine (buffer ++ chunk) = .ok none) :
    ∃ w', onRead uv c chunk.length (some chunk) w = .returns w' ∧
      HasInbox c (buffer ++ chunk, ms) w' := by
  have hread := onRead_appended (standing_true uv c) hne hin trivial fun v hv _ =>
    ⟨v, ?_, hv, trivial⟩
  · obtain ⟨w', hw', hin', -⟩ := hread
    exact ⟨w', hw', hin'⟩
  refine ((receive_ends hv.hasBuffer _).mp (.exit ?_)).symm
  rw [loopTurn, hv.hasBuffer.2, hcut]

/-- **One line too long and the connection is deaf**: the buffer grows with every read, its
    terminators included, and nothing that comes later is handed over. Induction on the
    chunks. -/
theorem onReads_unseen {s rest : Str} (hs : '\n' ∉ s) (hhigh : 2 ^ 31 ≤ s.length % 2 ^ 32) :
    ∀ {chunks : List Str} {w : World σ} {buffer : Str} {ms : List Message},
      (∀ chunk ∈ chunks, chunk ≠ []) → HasInbox c (buffer, ms) w →
      buffer ++ chunks.flatten <+: s ++ '\n' :: rest →
      ∃ w', onReads uv c chunks w = .returns w' ∧
        HasInbox c (buffer ++ chunks.flatten, ms) w' := by
  intro chunks
  induction chunks with
  | nil =>
    intro w buffer ms _ hin _
    exact ⟨w, rfl, by rwa [List.flatten_nil, List.append_nil]⟩
  | cons chunk chunks ih =>
    intro w buffer ms hne hin hp
    rw [List.flatten_cons, ← List.append_assoc] at hp ⊢
    have hcut := cutLine_unseen hs hhigh ((List.prefix_append _ _).trans hp)
    obtain ⟨w', hw', hin'⟩ := onRead_unseen (hne chunk (by simp)) hin hcut
    obtain ⟨w'', hw'', hin''⟩ := ih (fun b hb => hne b (List.mem_cons_of_mem chunk hb)) hin' hp
    refine ⟨w'', ?_, hin''⟩
    rw [onReads, hw']
    exact hw''

end

/-- What the framing of a buffer should be: whatever the app and the connection, the loop ends,
    and each of its turns cuts at the first terminator. -/
def ReceivesExactly (b : Str) : Prop :=
  ∀ (σ : Type) [App σ] [KeepsInbox σ] (uv : Uv) (c : ClientId) (w : World σ), HasBuffer c b w →
    (∃ o, Turn.Ends (loopTurn uv c) w o) ∧ CutsExactly uv c w

theorem receivesExactly_of_linesFit {b : Str} (hfit : LinesFit b) : ReceivesExactly b :=
  fun _ _ _ _ _ _ h => ⟨⟨_, (receive_ends h _).mpr rfl⟩, cutsExactly_of_linesFit h hfit⟩

/-- A process with one connection, accepted from a peer, and these bytes in its receive
    buffer. -/
def holding {σ : Type} (app : σ) (b : Str) : World σ :=
  (World.init app).create ((NetClientIn.new "127.0.0.1:6000".toList).setReceiveBuffer b)

theorem hasBuffer_holding {σ : Type} (app : σ) (b : Str) : HasBuffer 0 b (holding app b) :=
  ⟨Nat.one_pos, by
    unfold holding
    rw [show (0 : ClientId) = (World.init app).next from rfl, World.clients_create_next]
    rfl⟩

/-- **Framing by an `int` index.** The loop always ends, and with what
    `doProcessReceivedBuffer` gives. Its cuts are those at the first terminator if and only if
    every line it comes to fits an `int` — for every app that takes what it is handed, and so
    for all apps together. -/
theorem receivesExactly_iff (b : Str) :
    (∀ (σ : Type) [App σ] [KeepsInbox σ] (uv : Uv) (c : ClientId) (w : World σ),
      HasBuffer c b w → ∀ o, Turn.Ends (loopTurn uv c) w o ↔
        o = doProcessReceivedBuffer uv c w) ∧
      (ReceivesExactly b ↔ LinesFit b) ∧
      ∀ (σ : Type) [App σ] [KeepsInbox σ] (uv : Uv) (c : ClientId) (w : World σ),
        HasBuffer c b w → (∀ m, Takes (σ := σ) uv c m) →
        (CutsExactly uv c w ↔ LinesFit b) := by
  refine ⟨fun _ _ _ _ _ _ h => receive_ends h, ⟨fun h => ?_, receivesExactly_of_linesFit⟩,
    fun _ _ _ _ _ _ h htakes => ⟨linesFit_of_cutsExactly htakes h, cutsExactly_of_linesFit h⟩⟩
  -- the server takes every message, so its cuts are enough to tell
  have hserver := hasBuffer_holding (σ := ServerApp) {} b
  exact linesFit_of_cutsExactly (takes_serverApp Uv.cooperative 0) hserver
    (h ServerApp Uv.cooperative 0 _ hserver).2

/-- A buffer of two messages and the beginning of a third. -/
theorem receivesExactly_pings : ReceivesExactly "PING a\nPING b\nPI".toList :=
  (receivesExactly_iff _).2.1.mpr fun before s after h _ => by
    have hmem : s ∈ (segments '\n' "PING a\nPING b\nPI".toList).1 := by
      rw [h]
      simp
    have hlt := segment_length_lt hmem
    have hlen : "PING a\nPING b\nPI".toList.length = 16 := by decide
    omega

theorem no_terminator_replicate {ch : Char} (hch : ch ≠ '\n') (n : Nat) :
    '\n' ∉ List.replicate n ch :=
  fun h => hch (List.eq_of_mem_replicate h).symm

theorem not_linesFit_long {n : Nat} (hn : 2 ^ 31 ≤ n + 1) :
    ¬ LinesFit (List.replicate n 'x' ++ ['\n']) := by
  intro h
  have hfits := ((linesFit_line (no_terminator_replicate (by decide) n)).mp h).1
  rw [List.length_replicate] at hfits
  omega

/-- A long line in equal reads, and then its terminator, all of it left in the buffer. -/
theorem onReads_long {n size : Nat} (hsize : 0 < size) (hlow : 2 ^ 31 ≤ n * size)
    (hhigh : n * size < 2 ^ 32) :
    ∃ w', onReads Uv.cooperative 0 (List.replicate n (List.replicate size 'x') ++ [['\n']])
        (holding ({} : ServerApp) []) = .returns w' ∧
      HasInbox 0 (List.replicate (n * size) 'x' ++ ['\n'], []) w' := by
  have hflat : (List.replicate n (List.replicate size 'x') ++ [['\n']]).flatten =
      List.replicate (n * size) 'x' ++ ['\n'] := by
    rw [List.flatten_append, List.flatten_replicate_replicate]
    rfl
  have hne : ∀ chunk ∈ List.replicate n (List.replicate size 'x') ++ [['\n']], chunk ≠ [] := by
    intro chunk hmem
    rcases List.mem_append.mp hmem with hmem | hmem
    · rw [List.eq_of_mem_replicate hmem, Ne, List.replicate_eq_nil_iff]
      omega
    · rw [List.mem_singleton.mp hmem]
      simp
  have hmod : 2 ^ 31 ≤ (List.replicate (n * size) 'x').length % 2 ^ 32 := by
    rw [List.length_replicate, Nat.mod_eq_of_lt hhigh]
    exact hlow
  have hinbox : HasInbox 0 ([], []) (holding ({} : ServerApp) []) := ⟨Nat.one_pos, rfl⟩
  have hreads := @onReads_unseen ServerApp _ _ Uv.cooperative 0 _ []
    (no_terminator_replicate (by decide) (n * size)) hmod _ _ _ _ hne hinbox
    (by simp only [List.nil_append, hflat, List.prefix_rfl])
  rwa [List.nil_append, hflat] at hreads

/-- A line of 2^31 bytes, in reads as large as `alloc_buffer` makes them: the loop does not see
    its terminator, and the server is left with line and terminator in its buffer. One byte
    less, and `substr` throws; 2^32 bytes more than a message, and the message is taken out of
    the line. -/
theorem long_line_unseen :
    (¬ ReceivesExactly (List.replicate (2 ^ 31) 'x' ++ ['\n']) ∧
      ¬ CutsExactly Uv.cooperative 0
        (holding ({} : ServerApp) (List.replicate (2 ^ 31) 'x' ++ ['\n']))) ∧
    (∃ w', onReads Uv.cooperative 0
        (List.replicate 131072 (List.replicate 16384 'x') ++ [['\n']])
        (holding ({} : ServerApp) []) = .returns w' ∧
      HasInbox 0 (List.replicate (2 ^ 31) 'x' ++ ['\n'], []) w') ∧
    cutLine (List.replicate (2 ^ 31 - 1) 'x' ++ ['\n']) = .error .outOfRange ∧
    ∃ rest, cutLine ("PING a".toList ++ List.replicate (2 ^ 32) 'b' ++ ['\n']) =
      .ok (some ("PING a".toList, rest)) := by
  have hx : ∀ n, '\n' ∉ List.replicate n 'x' := no_terminator_replicate (by decide)
  have hcuts : ¬ CutsExactly Uv.cooperative 0
      (holding ({} : ServerApp) (List.replicate (2 ^ 31) 'x' ++ ['\n'])) := fun h =>
    not_linesFit_long (by omega)
      (linesFit_of_cutsExactly (takes_serverApp _ _) (hasBuffer_holding _ _) h)
  refine ⟨⟨fun h => hcuts (h ServerApp _ _ _ (hasBuffer_holding _ _)).2, hcuts⟩,
    onReads_long (by omega) (by omega) (by omega), ?_, ?_⟩
  · have hedge : (List.replicate (2 ^ 31 - 1) 'x').length % 2 ^ 32 + 1 = 2 ^ 31 := by
      rw [List.length_replicate]
      omega
    have hshort : (List.replicate (2 ^ 31 - 1) 'x' ++ ['\n']).length < 2 ^ 64 - 2 ^ 31 := by
      rw [List.length_append, List.length_replicate, List.length_singleton]
      omega
    rw [cutLine_edge (hx _) hedge, substrFrom, if_pos hshort]
    rfl
  · have hb : '\n' ∉ "PING a".toList ++ List.replicate (2 ^ 32) 'b' := by
      rw [List.mem_append, not_or]
      exact ⟨by decide, no_terminator_replicate (by decide) _⟩
    have hping : "PING a".toList.length = 6 := by decide
    have hlow : ("PING a".toList ++ List.replicate (2 ^ 32) 'b').length % 2 ^ 32 = 6 := by
      rw [List.length_append, List.length_replicate, hping]
      omega
    have htake : ("PING a".toList ++ List.replicate (2 ^ 32) 'b' ++ ['\n']).take 6 =
        "PING a".toList := by
      rw [List.append_assoc]
      exact List.take_left' hping
    have hcut := @cutLine_narrowed _ [] hb (by rw [hlow]; omega)
    rw [hlow, htake] at hcut
    exact ⟨_, hcut⟩

end TcpUv
