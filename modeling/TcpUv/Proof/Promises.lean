import TcpUv.Proof.Conduct
import Mathlib.Data.List.Infix

/-!
# What the programs promise each other

What one of the programs puts on a stream is a beginning of the frames of sound messages
(`Promised`), as long as what it takes off its own streams is part of what was promised to it.
That is the contract of networks (`contract`), with one invariant for a process and what it has
taken (`Fulfils`): it runs, it keeps to its conduct, and its connections have handed over the lines
of what they took.
-/

set_option autoImplicit false

namespace TcpUv

open Lib (Network System segments segments_mono segments_flatMap segments_append)

/-! ## A promise, and what it is worth -/

/-- A beginning of the frames of sound messages, none of them too long for an `int`. -/
def Promised (Γ : Rumours) (L : Int32 → Prop) (bytes : Str) : Prop :=
  ∃ ms : List Message, bytes <+: (ms.map frame).flatten ∧
    ∀ m ∈ ms, Sayable Γ L m ∧ (frame m).length < 2 ^ 31

theorem Promised.mono {Γ : Rumours} {L L' : Int32 → Prop} (hL : ∀ port, L port → L' port)
    {bytes : Str} (h : Promised Γ L bytes) : Promised Γ L' bytes :=
  h.imp fun _ hms => ⟨hms.1, fun m hm => ⟨(hms.2 m hm).1.mono hL, (hms.2 m hm).2⟩⟩

/-- The lines of frames are the messages' texts. -/
theorem lines_frames {ms : List Message} (h : ∀ m ∈ ms, '\n' ∉ serialize m) :
    lines (ms.map frame).flatten = ms.map serialize := by
  have hno : ∀ s ∈ ms.map serialize, '\n' ∉ s := by
    intro s hs
    obtain ⟨m, hm, rfl⟩ := List.mem_map.mp hs
    exact h m hm
  have hframes := congrArg Prod.fst (segments_flatMap hno)
  rw [List.flatMap_map, List.flatMap_def] at hframes
  exact hframes

theorem requests_frames {ms : List Message} (h : ∀ m ∈ ms, '\n' ∉ serialize m) :
    requests (ms.map frame).flatten = ms.filterMap heard := by
  rw [requests, lines_frames h, List.filterMap_map]
  rfl

theorem requests_prefix {b b' : Str} (h : b <+: b') : requests b <+: requests b' :=
  (segments_mono '\n' h).filterMap lineMessage

/-- What arrives of a promised stream is clean, and tells nothing that is not in the account. -/
theorem Promised.arrives {Γ : Rumours} {L : Int32 → Prop} {b bytes : Str} (h : Promised Γ L bytes)
    (hb : b <+: bytes) : CleanLines b ∧ ∀ m ∈ requests b, m.WF ∧ Γ.Told L m := by
  obtain ⟨ms, hms, hsound⟩ := h
  -- a prefix of the frames has only whole lines of theirs, whatever its last bytes are
  have hlines : lines b <+: ms.map serialize :=
    lines_frames (fun m hm => (hsound m hm).1.oneLine) ▸ segments_mono '\n' (hb.trans hms)
  refine ⟨fun line hline => ?_, fun m hm => ?_⟩
  · obtain ⟨m, hm, rfl⟩ := List.mem_map.mp (hlines.subset hline)
    have hshort := (hsound m hm).2
    rw [frame, List.length_append, List.length_singleton] at hshort
    exact ⟨hshort, (hsound m hm).1.lineOk⟩
  · obtain ⟨line, hline, hparse⟩ := List.mem_filterMap.mp hm
    obtain ⟨m₀, hm₀, rfl⟩ := List.mem_map.mp (hlines.subset hline)
    exact ⟨wf_of_lineMessage hparse, (hsound m₀ hm₀).1.told m hparse⟩

theorem CleanLines.residue {b b' : Str} (h : CleanLines (b ++ b')) :
    CleanLines ((segments '\n' b).2 ++ b') := fun line hline => h line (by
  rw [lines_append]
  exact List.mem_append_right _ hline)

theorem arrived_append (b b' : Str) :
    arrived (arrived ([], []) b) b' = arrived ([], []) (b ++ b') := by
  have hcut := segments_append '\n' b b'
  simp only [arrived, requests, lines, List.nil_append, hcut, List.filterMap_append]

/-! ## A history only grows -/

section

variable (l : List Act)

/-- What a connection's own callbacks do to its history is to add to it. -/
theorem grows : CallbackRule (fun k => k.Attached ∧ l <+: k.acts) where
  attached h := h.1
  same hs h := ⟨fun hsome => by
    rw [hs.tcp]
    exact h.1 (hs.myUvStream ▸ hsome), by rw [hs.acts]; exact h.2⟩
  shut {k} h := by
    obtain ⟨l', hl', -⟩ := (Client.Idle.shut k).acts
    exact ⟨Client.attached_shut k, by rw [hl']; exact h.2.trans (List.prefix_append _ _)⟩
  send {k} m res h := by
    obtain ⟨l', hl', -⟩ := (Client.sends_send m res k).acts
    exact ⟨Client.attached_send h.1, by rw [hl']; exact h.2.trans (List.prefix_append _ _)⟩
  violated _ h := ⟨h.1, h.2.trans (List.prefix_append _ _)⟩
  read {k} res h := by
    obtain ⟨l', hl', -⟩ := (Client.Idle.read res k).acts
    exact ⟨(Client.Idle.read res k).attached h.1,
      by rw [hl']; exact h.2.trans (List.prefix_append _ _)⟩
  handOver _ h := ⟨h.1, (h.2.trans (List.prefix_append _ _)).trans (List.prefix_append _ _)⟩
  bookkeeping hclosing _ h := ⟨fun hsome => hclosing.trans (h.1 hsome), h.2⟩
  established _ h := ⟨h.1, h.2.trans (List.prefix_append _ _)⟩
  retire held _ h := by
    refine ⟨?_, ?_⟩
    · cases held <;> exact h.1
    · cases held <;>
        exact h.2.trans (by simp [Client.retire, Client.log, Client.setState])

theorem grows_destroy {k : Client} (h : l <+: k.acts) : l <+: (NodeApp.destroy k).acts := by
  refine h.trans ?_
  unfold NodeApp.destroy
  split <;> exact List.prefix_append _ _

end

/-- **A connection is never forgotten**, and neither is what it did. -/
theorem Program.acts_grow {p : Program} {s : p.Process} {e : p.Event} {c : ClientId}
    (hsane : p.Sane s) (hstreams : p.EachConn Client.Streams s) (ha : p.system.allowed s e)
    (hc : c < p.count s) : c < p.count (p.system.step s e) ∧
      (p.conn s c).acts <+: (p.conn (p.system.step s e) c).acts := by
  by_cases hown : ∃ cb, p.callback e = some (c, cb)
  · obtain ⟨cb, hcb⟩ := hown
    obtain ⟨hc', -, hacts⟩ := Program.conn_own (grows (p.conn s c).acts).kept ha hcb
      ⟨(hstreams c hc).attached, List.prefix_rfl⟩
    exact ⟨hc', hacts⟩
  · exact Program.conn_other (J := fun k => (p.conn s c).acts <+: k.acts) (grows_destroy _)
      hsane ha (fun cb hcb => hown ⟨cb, hcb⟩) hc List.prefix_rfl

/-! ## The contract -/

/-- A process of a network: it runs, it keeps to its conduct, and its connections have handed over
    the lines of what they took. -/
structure Fulfils (Γ : Rumours) (L : Int32 → Prop) (p : Program) (s : p.Process)
    (taken : ClientId → Str) : Prop where
  running : p.terminated s = none
  conduct : p.Conduct Γ L s
  streams : p.EachConn Client.Streams s
  inbox : ∀ c < p.count s, (p.conn s c).inbox = arrived ([], []) (taken c)
  untouched : ∀ c, ¬ c < p.count s → taken c = []

/-- No message of the process is too long for a 32-bit index. -/
def Program.ShortFrames (p : Program) (s : p.Process) : Prop :=
  ∀ c < p.count s, ∀ m ∈ (p.conn s c).sent, (frame m).length < 2 ^ 31

namespace Fulfils

variable {Γ : Rumours} {L : Int32 → Prop} {p : Program} {s : p.Process} {e : p.Event}
  {taken : ClientId → Str}

theorem init (Γ : Rumours) (L : Int32 → Prop) (p : Program) : Fulfils Γ L p p.init fun _ => [] where
  running := by cases p <;> rfl
  conduct := p.conduct_init Γ L
  streams := by cases p <;> exact fun c hc => absurd hc (Nat.not_lt_zero c)
  inbox := by cases p <;> exact fun c hc => absurd hc (Nat.not_lt_zero c)
  untouched _ _ := rfl

/-- The promise is kept. -/
theorem promised (h : Fulfils Γ L p s taken) (hshort : p.ShortFrames s) (c : ClientId) :
    Promised Γ L (p.component.sent s c) := by
  show Promised Γ L (if c < p.count s then (p.conn s c).streamed.flatten else [])
  split
  · rename_i hc
    refine ⟨(p.conn s c).sent, ?_, fun m hm => ⟨h.conduct.sayable hc hm, hshort c hc m hm⟩⟩
    exact (h.streams c hc).streamsSent.1.flatten
  · exact ⟨[], List.nil_prefix, by simp⟩

/-- Nothing is taken back. -/
theorem sent_grows (h : Fulfils Γ L p s taken) (ha : p.system.allowed s e) (c : ClientId) :
    p.component.sent s c <+: p.component.sent (p.system.step s e) c := by
  show (if c < p.count s then (p.conn s c).streamed.flatten else []) <+:
    if c < p.count (p.system.step s e) then (p.conn (p.system.step s e) c).streamed.flatten else []
  by_cases hc : c < p.count s
  · obtain ⟨hc', hgrown⟩ := Program.acts_grow h.conduct.sane h.streams ha hc
    rw [if_pos hc, if_pos hc']
    exact (hgrown.filterMap Act.streamedFrame).flatten
  · rw [if_neg hc]
    exact List.nil_prefix

/-- What a callback brings is fit to be cut and handed over. -/
theorem fit {c : ClientId} {cb : Callback} (ha : p.system.allowed s e)
    (he : p.callback e = some (c, cb))
    (htakes : ∀ x ∈ p.component.takes e, ∃ bytes, Promised Γ Γ.listened bytes ∧
      taken x.1 ++ x.2 <+: bytes) :
    CleanLines ((arrived ([], []) (taken c)).1 ++ cb.bytes) ∧
      (∀ m ∈ requests ((arrived ([], []) (taken c)).1 ++ cb.bytes), m.WF ∧ Γ.Told Γ.listened m) ∧
      Lib.absorb taken (p.component.takes e) c = taken c ++ cb.bytes ∧
      ∀ d ≠ c, Lib.absorb taken (p.component.takes e) d = taken d := by
  have hbytes := Callback.bytes_chunk (Program.allowed_callback ha he).2
  have htaken : p.component.takes e = cb.chunk.map fun chunk => (c, chunk) := by
    show (p.callback e).bind _ = _
    rw [he]
    rfl
  rw [htaken] at htakes ⊢
  have hresidue : '\n' ∉ (arrived ([], []) (taken c)).1 := Lib.residue_not_mem '\n' _
  cases hchunk : cb.chunk with
  -- no bytes: the buffer alone holds no complete line
  | none =>
    rw [hchunk, Option.getD_none] at hbytes
    have hnone : lines ((arrived ([], []) (taken c)).1 ++ []) = [] := by
      rw [List.append_nil, lines, Lib.segments_of_not_mem hresidue]
    rw [hbytes]
    refine ⟨fun line hline => ?_, fun m hm => ?_, (List.append_nil _).symm, fun _ _ => rfl⟩
    · rw [hnone] at hline
      cases hline
    · rw [requests, hnone] at hm
      cases hm
  | some chunk =>
    rw [hchunk, Option.getD_some] at hbytes
    obtain ⟨bytes, hpromised, hprefix⟩ := htakes (c, chunk) (by rw [hchunk]; rfl)
    obtain ⟨hclean, htold⟩ := hpromised.arrives hprefix
    rw [hbytes]
    refine ⟨hclean.residue, fun m hm => htold m ?_, Lib.absorb_self _ _ _,
      fun d hd => Lib.absorb_ne _ hd _⟩
    rw [requests_append]
    exact List.mem_append_right _ hm

/-- **An event of a process that takes only what was promised.** -/
theorem step (h : Fulfils Γ L p s taken) (hcov : p.Covered Γ) (ha : p.system.allowed s e)
    (hadm : p.Admits Γ L e)
    (htakes : ∀ x ∈ p.component.takes e, ∃ bytes, Promised Γ Γ.listened bytes ∧
      taken x.1 ++ x.2 <+: bytes) :
    Fulfils Γ L p (p.system.step s e) (Lib.absorb taken (p.component.takes e)) := by
  have hsane := h.conduct.sane
  have hresidue : ∀ c, '\n' ∉ (arrived ([], []) (taken c)).1 := fun c => Lib.residue_not_mem '\n' _
  have hcallback : ∀ c cb, p.callback e = some (c, cb) → p.threw s c cb = false ∧
      (p.conn (p.system.step s e) c).inbox =
        arrived ([], []) (Lib.absorb taken (p.component.takes e) c) ∧
      ∀ m ∈ cb.delivers (p.conn s c), m.WF ∧ Γ.Told Γ.listened m := by
    intro c cb he
    obtain ⟨hclean, htold, habsorb, -⟩ := fit ha he htakes
    have hin := h.inbox c (Program.allowed_callback ha he).1
    obtain ⟨hthrew, harrived⟩ := Program.arrives ha he (hresidue c) hclean
      (fun m hm => p.takes c (htold m hm).2) hin
    -- the receive buffer is what the stream left behind its last terminator
    have hbuffer : (p.conn s c).myReceiveBuffer = (arrived ([], []) (taken c)).1 :=
      congrArg Prod.fst hin
    refine ⟨hthrew, ?_, fun m hm => htold m ?_⟩
    · rw [harrived, habsorb, arrived_append]
    · rw [Client.delivers_segments (hbuffer ▸ hresidue c) (hbuffer ▸ hclean), hbuffer] at hm
      exact hm
  have hret := fun c cb he => (hcallback c cb he).1
  -- a connection that has no callback of its own takes nothing
  have hidle : ∀ c, (∀ cb, p.callback e ≠ some (c, cb)) →
      Lib.absorb taken (p.component.takes e) c = taken c := by
    intro c hno
    cases he : p.callback e with
    | none =>
      have hnone : p.component.takes e = none := by
        show (p.callback e).bind _ = none
        rw [he]
        rfl
      rw [hnone, Lib.absorb_none]
    | some x =>
      obtain ⟨d, cb⟩ := x
      exact (fit ha he htakes).2.2.2 c fun hcd => hno cb (hcd ▸ he)
  refine ⟨Program.terminated_step hret h.running,
    Program.conduct_step hcov ha hadm hret (fun c cb he => (hcallback c cb he).2.2) h.conduct,
    Client.Streams.connRule.kept.step hsane ha h.streams, fun c hc' => ?_, fun c hc' => ?_⟩
  · by_cases hown : ∃ cb, p.callback e = some (c, cb)
    · obtain ⟨cb, hcb⟩ := hown
      exact (hcallback c cb hcb).2.1
    · have hno : ∀ cb, p.callback e ≠ some (c, cb) := fun cb hcb => hown ⟨cb, hcb⟩
      rw [hidle c hno]
      -- not its own callback: at most a destructor ran, or the connection is new
      by_cases hc : c < p.count s
      · exact (Program.conn_other (J := fun k => k.inbox = arrived ([], []) (taken c))
          (fun hk => (Program.inbox_destroy _).trans hk) hsane ha hno hc (h.inbox c hc)).2
      · rw [h.untouched c hc, arrived_nil (by simp)]
        exact Program.conn_new (J := fun k => k.inbox = ([], [])) Program.inbox_newborn
          (fun hk => (Program.inbox_destroy _).trans hk) hsane ha hc hc'
  · have hc : ¬ c < p.count s := fun hc => hc' (Program.acts_grow hsane h.streams ha hc).1
    rw [hidle c fun cb hcb => hc (Program.allowed_callback ha hcb).1]
    exact h.untouched c hc

end Fulfils

/-! ## The three programs -/

/-- **The contract of the three programs**, with an account of what may be known and of the ports
    each process listens on. -/
theorem contract {ι : Type} (prog : ι → Program) (link : ι → ClientId → Option (ι × ClientId))
    {Γ : Rumours} {L : ι → Int32 → Prop} (hL : ∀ i port, L i port → Γ.listened port)
    (hcov : ∀ i, (prog i).Covered Γ) :
    (network prog link).Contract (fun i => (prog i).ShortFrames)
      (fun i _ e => (prog i).Admits Γ (L i) e) (fun i => Fulfils Γ (L i) (prog i))
      (fun i _ => Promised Γ (L i)) where
  guarantee h hshort c := h.promised hshort c
  step {i s taken e} h _ hadm ha htakes :=
    h.step (hcov i) ha hadm fun x hx => by
      obtain ⟨q, -, bytes, hpromised, hprefix⟩ := htakes x hx
      exact ⟨bytes, hpromised.mono (hL q.1), hprefix⟩
  grows h ha c := h.sent_grows ha c

end TcpUv
