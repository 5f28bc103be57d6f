import TcpUv.Proof.Arrivals
import TcpUv.Proof.EveryConn
import TcpUv.Proof.Hearsay
import TcpUv.Proof.ServerReplies

/-!
# How the programs conduct themselves

What each of the three programs sends, as long as it is told only what is in an account: messages
that travel as one line each, that the parser at the other end does not throw on, and that
tell nothing but what is in the account (`Sayable`). The client program says its handshake and
pings, the server answers, and the node keeps to `Sourced`. Two of the answers of a server that
has no name yet are no messages at the other end; they are sound all the same, because what is
heard of them (`heard`) is nothing.
-/

set_option autoImplicit false

namespace TcpUv

open Lib (segments words words_cons_space words_of_isWord IsWord isspace)

theorem Client.mem_sent {k : Client} {m : Message} : m ∈ k.sent ↔ Act.sendMessage m ∈ k.acts := by
  refine List.mem_filterMap.trans ⟨fun ⟨a, ha, hsent⟩ => ?_, fun h => ⟨_, h, rfl⟩⟩
  cases a with
  | sendMessage m' => exact Option.some.inj hsent ▸ ha
  | _ => cases hsent

theorem Client.mem_delivered {k : Client} {m : Message} :
    m ∈ k.delivered ↔ Act.messageReceived m ∈ k.acts := by
  refine List.mem_filterMap.trans ⟨fun ⟨a, ha, hgiven⟩ => ?_, fun h => ⟨_, h, rfl⟩⟩
  cases a with
  | messageReceived m' => exact Option.some.inj hgiven ▸ ha
  | _ => cases hgiven

/-! ## What is heard of a message -/

/-- What the receiver makes of the line a message is sent as. -/
def heard (m : Message) : Option Message := lineMessage (serialize m)

theorem heard_of_wf {m : Message} (h : m.WF) : heard m = some m := by
  rw [heard, lineMessage, parseLine_serialize h]

theorem wf_of_lineMessage {line : Str} {m : Message} (h : lineMessage line = some m) : m.WF := by
  unfold lineMessage at h
  split at h
  · rename_i om hline
    exact wf_of_parseLine (hline.trans (congrArg Except.ok h))
  · cases h

/-- A message that travels as one line, on which the receiver's parser does not throw, and of
    which nothing is heard that is not in the account. -/
structure Sayable (Γ : Rumours) (L : Int32 → Prop) (m : Message) : Prop where
  oneLine : '\n' ∉ serialize m
  lineOk : LineOk (serialize m)
  told : ∀ m' ∈ heard m, Γ.Told L m'

section

variable {Γ : Rumours} {L : Int32 → Prop}

theorem Sayable.mono {L' : Int32 → Prop} (hL : ∀ port, L port → L' port) {m : Message}
    (h : Sayable Γ L m) : Sayable Γ L' m :=
  ⟨h.oneLine, h.lineOk, fun m' hm' => (h.told m' hm').mono hL⟩

theorem sayable_of_wf {m : Message} (h : m.WF) (ht : Γ.Told L m) : Sayable Γ L m where
  oneLine := newline_not_mem_serialize h
  lineOk := ⟨some m, parseLine_serialize h⟩
  told m' hm' := by
    rw [heard_of_wf h] at hm'
    rw [← Option.mem_some.mp hm']
    exact ht

/-- A handshake answered before the server has its name: the line has a word too few. -/
theorem parseLine_nameless {addr : Str} (h : IsWord addr) :
    parseLine (serialize (.handshakeResponse textV01 [] addr)) = .ok none := by
  have hspace : words (' ' :: addr) = words addr := by
    rw [words, Lib.wordsFrom]
    rfl
  -- two spaces next to each other separate nothing
  have hwords : words (serialize (.handshakeResponse textV01 [] addr)) =
      [kwHandshResp, textV01, addr] := by
    rw [serialize, List.nil_append, words_cons_space isWord_kwHandshResp,
      words_cons_space (by decide), hspace, words_of_isWord h]
  rw [parseLine, hwords]
  simp [parseMessage, kwHandsh, kwHandshResp, kwPing, kwPingResp, kwOpeer]

theorem wf_handshakeResponse {name addr : Str} (hname : IsWord name) (haddr : IsWord addr) :
    (Message.handshakeResponse textV01 name addr).WF := by
  have hv : IsWord textV01 := by decide
  simpa [Message.WF, Message.fields, hv, hname] using haddr

theorem sayable_handshakeResponse {name addr : Str} (hname : name = [] ∨ IsWord name)
    (haddr : IsWord addr) : Sayable Γ L (.handshakeResponse textV01 name addr) := by
  rcases hname with rfl | hname
  · have hparse := parseLine_nameless haddr
    refine ⟨?_, ⟨none, hparse⟩, fun m' hm' => ?_⟩
    · have hkw : '\n' ∉ kwHandshResp ∧ '\n' ∉ textV01 := by decide
      have haddr' : '\n' ∉ addr := IsWord.newline_not_mem haddr
      simp [serialize, hkw, haddr']
    · rw [heard, lineMessage, hparse] at hm'
      cases hm'
  · exact sayable_of_wf (wf_handshakeResponse hname haddr) trivial

theorem wf_pingResponse {name text : Str} (hname : name = [] ∨ IsWord name) (htext : IsWord text) :
    (Message.pingResponse (textRespFrom ++ name ++ textTo ++ text)).WF := by
  have hspace : NoSpace name := hname.elim (fun h => by rw [h]; exact fun _ hm => by cases hm)
    fun h => h.2
  have hfrom : NoSpace textRespFrom := (by decide : IsWord textRespFrom).2
  have hto : NoSpace textTo := (by decide : IsWord textTo).2
  intro f hf
  rw [List.mem_singleton.mp hf]
  exact ⟨by simp [textRespFrom], ((hfrom.append hspace).append hto).append htext.2⟩

/-- What a server answers is sound. -/
theorem sayable_answer {name addr : Str} (hname : name = [] ∨ IsWord name) (haddr : IsWord addr)
    {m m' : Message} (hm : m.WF) (ha : ServerApp.answer name addr m = some m') :
    Sayable Γ L m' := by
  cases m with
  | handshake v y a =>
    rw [ServerApp.answer] at ha
    split at ha
    · rw [← Option.some.inj ha]
      exact sayable_handshakeResponse hname haddr
    · cases ha
  | ping text =>
    rw [← Option.some.inj ha]
    exact sayable_of_wf (wf_pingResponse hname (hm text (by simp [Message.fields]))) trivial
  | _ => cases ha

end

/-! ## The client program -/

/-- What the client program has to say. -/
def Message.OfClient : Message → Prop
  | .handshake myVersion _ myAddr => myVersion = textV01 ∧ myAddr = textNone
  | .ping _ => True
  | _ => False

/-- A connection of the client program: its address is a word, and it said what it has to say. -/
structure Client.Polite (k : Client) : Prop where
  peerAddr : IsWord k.myPeerAddr
  sent : ∀ m, Act.sendMessage m ∈ k.acts → m.WF ∧ m.OfClient

theorem Client.Quiet.polite {k k' : Client} (hq : k.Quiet k') (h : k.Polite) : k'.Polite := by
  refine ⟨hq.myPeerAddr ▸ h.peerAddr, fun m hm => ?_⟩
  obtain ⟨l, hl, hquiet⟩ := hq.acts
  rw [hl] at hm
  rcases List.mem_append.mp hm with hm | hm
  · exact h.sent m hm
  · exact absurd (hquiet _ hm) (by simp [Act.isQuiet])

theorem robustApp_polite (uv : Uv) (c : ClientId) :
    RobustApp uv c (fun w : World ClientApp => (w.clients c).Polite) where
  quiet {w f} hf h := by
    rw [World.clients_modify_self]
    exact (hf _).polite h
  connectionClosed h := h
  greets {w m} hm h := by
    have hname : IsWord textNone := by decide
    have hv : IsWord textV01 := by decide
    have hwf : m.WF ∧ m.OfClient := by
      rcases hm with rfl | ⟨n, rfl⟩
      · refine ⟨?_, rfl, rfl⟩
        simpa [Message.WF, Message.fields, hv] using ⟨h.peerAddr, hname⟩
      · refine ⟨fun f hf => ?_, trivial⟩
        rw [List.mem_singleton.mp hf]
        exact isWord_pingText hname h.peerAddr n
    rw [World.clients_modify_self]
    refine ⟨h.peerAddr, fun m' hm' => ?_⟩
    rcases List.mem_append.mp hm' with hold | hnew
    · exact h.sent m' hold
    · rw [List.mem_singleton, Act.sendMessage.injEq] at hnew
      exact hnew ▸ hwf
  sendOtherPeers h := h
  connected h _ := by
    rw [World.clients_modify_self]
    exact ⟨h.peerAddr, h.sent⟩
  buffer _ h := by
    rw [World.clients_modify_self]
    exact ⟨h.peerAddr, h.sent⟩
  message {w _ m} _ h := by
    show ((w.modify c (Client.handOver m)).clients c).Polite
    rw [World.clients_modify_self]
    refine ⟨h.peerAddr, fun m' hm' => h.sent m' ?_⟩
    simpa [Client.handOver, Client.log, Client.setState] using hm'

theorem polite_dial {host : Str} (h : NoSpace host) (port pingToSend : Int32) (res : Int) :
    ((NetClientOut.new host port pingToSend).dial res).Polite := by
  refine ⟨?_, fun m hm => ?_⟩
  · obtain ⟨b, hb⟩ := (NetClientOut.new host port pingToSend).dial_eq res
    rw [hb]
    exact isWord_endpointText h port
  · rw [acts_dial rfl] at hm
    simp at hm

/-- Every connection of the client program is polite, if its hosts are free of whitespace. -/
theorem polite_step {uv : Uv} {w : World ClientApp} {e : ClientEvent}
    (ha : (clientSystem uv).allowed w e)
    (hhost : ∀ host port pingToSend, e = .newClient host port pingToSend → NoSpace host)
    (h : ∀ c < w.next, (w.clients c).Polite) :
    ∀ c < (clientStep uv w e).next, ((clientStep uv w e).clients c).Polite := by
  intro c hc
  cases e with
  | newClient host port pingToSend =>
    obtain ⟨⟨res, hnew⟩, hold, hnext⟩ := newClient_spec uv host port pingToSend w
    change c < (ClientApp.newClient uv host port pingToSend w).next at hc
    show ((ClientApp.newClient uv host port pingToSend w).clients c).Polite
    rw [hnext] at hc
    by_cases hself : c = w.next
    · subst hself
      rw [hnew]
      exact polite_dial (hhost host port pingToSend rfl) port pingToSend res
    · rw [hold c hself]
      exact h c (Nat.lt_of_le_of_ne (Nat.lt_succ_iff.mp hc) hself)
  | client d cb =>
    by_cases hcd : c = d
    · subst hcd
      have hown := (robustApp_polite uv c).callback cb (h c ha.2.1)
      show ((callback uv c w cb).settle.clients c).Polite
      rw [Outcome.clients_settle]
      exact hown
    · obtain ⟨hclient, hnext⟩ := clientStep_elsewhere uv hcd cb (w := w)
      rw [hclient]
      exact h c (hnext ▸ hc)

/-! ## The server -/

/-- What a server sends is sound, and its texts are words. -/
structure ServerConduct (Γ : Rumours) (L : Int32 → Prop) (w : World ServerApp) : Prop where
  sane : ServerSane w
  texts : ServerWords w
  sent : ∀ c, ∀ m ∈ (w.clients c).sent, Sayable Γ L m

theorem serverConduct_step {Γ : Rumours} {L : Int32 → Prop} {uv : Uv} (hip : uv.IPv4)
    {s : ServerRun} {e : ServerEvent}
    (ha : (serverSystem uv).allowed s e)
    (hwf : ∀ c cb, e = .client c cb → ∀ m ∈ cb.delivers (s.world.clients c), m.WF)
    (h : ServerConduct Γ L s.world) : ServerConduct Γ L (serverStep uv s e).world where
  sane := serverSane_step s e h.sane ha
  texts := serverWords_step hip h.sane h.texts ha
  sent d m hm := by
    have hmove := serverStep_move h.sane ha
    generalize (serverStep uv s e).world = w' at hmove hm
    -- either nothing was sent, or one connection answered what was handed over to it
    rcases hmove.sent with ⟨-, hsent⟩ | ⟨c, cb, rfl, hc, hself, hothers⟩
    · rcases hsent d with hsame | hnone
      · exact h.sent d m (hsame ▸ hm)
      · rw [hnone] at hm
        cases hm
    · by_cases hd : d = c
      · rw [hd, hself] at hm
        rcases List.mem_append.mp hm with hold | hnew
        · exact h.sent c m hold
        · obtain ⟨m₀, hm₀, hanswer⟩ := List.mem_filterMap.mp hnew
          exact sayable_answer h.texts.name (h.texts.addr c hc) (hwf c cb rfl m₀ hm₀) hanswer
      · rw [hothers d hd] at hm
        exact h.sent d m hm

/-! ## Each program -/

namespace Program

/-- What a program keeps to. -/
def Conduct (Γ : Rumours) (L : Int32 → Prop) : (p : Program) → p.Process → Prop
  | .client _, w => ∀ c < w.next, (w.clients c).Polite
  | .server _, s => ServerConduct Γ L s.world
  | .node _, w => CleanNode w ∧ Sourced Γ L w

/-- What its user, its operating system and its main thread bring about is in the account. -/
def Admits (Γ : Rumours) (L : Int32 → Prop) : (p : Program) → p.Event → Prop
  | .client _, .newClient host _ _ => NoSpace host
  | .node uv, e => e.Within uv (fun params => params.Clean ∧ Γ.Allows params) L
  | _, _ => True

/-- The account covers what libuv reports to the program, over IPv4. -/
def Covered (Γ : Rumours) (p : Program) : Prop := p.uv.IPv4 ∧ Γ.Covers p.uv

variable {Γ : Rumours} {L : Int32 → Prop} {p : Program} {s : p.Process} {e : p.Event}

theorem conduct_init (Γ : Rumours) (L : Int32 → Prop) (p : Program) : p.Conduct Γ L p.init := by
  cases p with
  | client uv => exact fun c hc => absurd hc (Nat.not_lt_zero c)
  | server uv =>
    exact ⟨serverSane_init, ⟨Or.inl rfl, fun c hc => absurd hc (Nat.not_lt_zero c)⟩,
      fun c m hm => by cases hm⟩
  | node uv => exact ⟨cleanNode_init, sourced_init Γ L⟩

theorem Conduct.sane (h : p.Conduct Γ L s) : p.Sane s := by
  cases p with
  | client uv => trivial
  | server uv => exact ServerConduct.sane h
  | node uv => trivial

/-- **One event of a program that is told only what is in the account**, and does not throw. -/
theorem conduct_step (hcov : p.Covered Γ) (ha : p.system.allowed s e) (hadm : p.Admits Γ L e)
    (hret : ∀ c cb, p.callback e = some (c, cb) → p.threw s c cb = false)
    (htold : ∀ c cb, p.callback e = some (c, cb) →
      ∀ m ∈ cb.delivers (p.conn s c), m.WF ∧ Γ.Told Γ.listened m)
    (h : p.Conduct Γ L s) : p.Conduct Γ L (p.system.step s e) := by
  cases p with
  | client uv =>
    refine polite_step ha (fun host port pingToSend he => ?_) h
    subst he
    exact hadm
  | server uv =>
    refine serverConduct_step hcov.1 ha (fun c cb he m hm => ?_) h
    subst he
    exact (htold c cb rfl m hm).1
  | node uv =>
    -- the texts are kept clean by one invariant, and their sources by another
    have hwithin : e.Within uv (fun params => params.Clean ∧ Γ.Allows params) L := hadm
    have hclean : e.StartsWith AppParams.Clean := by
      cases e with
      | start params => exact hwithin.1.1
      | _ => trivial
    have hallows : e.StartsWith Γ.Allows := by
      cases e with
      | start params => exact hwithin.1.2
      | _ => trivial
    refine ⟨(nodeInvariant_cleanNode hcov.1).step ha hclean h.1,
      (guarded_sourced hcov.2).step ha ⟨hallows, hwithin.2⟩ ?_ (fun c cb he => ?_) h.2⟩
    · cases e with
      | client c cb => exact fun m hm => (htold c cb rfl m hm).2
      | _ => trivial
    · subst he
      exact hret c cb rfl

/-- **What it sends is sound.** -/
theorem Conduct.sayable (h : p.Conduct Γ L s) {c : ClientId} (hc : c < p.count s) {m : Message}
    (hm : m ∈ (p.conn s c).sent) : Sayable Γ L m := by
  have hacts := Client.mem_sent.mp hm
  cases p with
  | client uv =>
    obtain ⟨hwf, hsays⟩ := (h c hc).sent m hacts
    refine sayable_of_wf hwf ?_
    cases m with
    | handshake v y a =>
      obtain ⟨-, rfl⟩ := hsays
      -- the client program introduces itself as `_NONE_`, which tells no port
      exact fun hcolon => absurd hcolon (by decide)
    | ping text => trivial
    | _ => exact absurd hsays id
  | server uv => exact ServerConduct.sent h c m hm
  | node uv => exact sayable_of_wf (h.1.sent c m hacts) (h.2.sent c m hacts)

/-- A program takes every message that tells only what is in the account. -/
theorem takes (p : Program) (c : ClientId) {m : Message} (h : Γ.Told L m) : p.Takes c m := by
  cases p with
  | client uv => exact fun w => ⟨w, rfl⟩
  | server uv => exact takes_serverApp uv c m
  | node uv => exact h.takes uv c

end Program

end TcpUv
