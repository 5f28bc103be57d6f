import TcpUv.Proof.Promises

/-!
# Networks of the three programs

Any number of clients, servers and nodes, their connections joined in any way. The contract of the
programs turns into a property of every proper run (`Proper`), whatever order the events come
in and however the streams are cut into reads: `fulfils`.

Two results for whole networks come out of it. No process of one is ever ended by an exception
(`network_running`); and what is handed over at one end of a connection is what was said at the
other, in order and nothing left out (`network_fidelity`).
-/

set_option autoImplicit false

namespace TcpUv

open Lib (Network System isspace)

/-! ## Proper runs -/

/-- What a user brings about: hosts and peers without whitespace in them. -/
def Program.Decent : (p : Program) → p.Event → Prop
  | .client _, .newClient host _ _ => NoSpace host
  | .node _, .start params => params.Clean
  | _, _ => True

instance decidableNoSpace (s : Str) : Decidable (NoSpace s) :=
  List.decidableBAll (fun ch => isspace ch = false) s

instance decidableDecent : ∀ (p : Program) (e : p.Event), Decidable (p.Decent e)
  | .client _, .newClient host _ _ => decidableNoSpace host
  | .client _, .client _ _ => .isTrue trivial
  | .server _, _ => .isTrue trivial
  | .node _, .start params => List.decidableBAll NoSpace params.extraPeers
  | .node _, .listenStarted _ => .isTrue trivial
  | .node _, .newConnection _ _ => .isTrue trivial
  | .node _, .client _ _ => .isTrue trivial

/-- The peers an event gives a node. -/
def Program.peers : (p : Program) → p.Event → List Str
  | .node _, .start params => params.extraPeers
  | _, _ => []

/-- The port an event makes a node listen on. -/
def Program.listensOn : (p : Program) → p.Event → Option Int32
  | .node uv, e => e.listensOn uv
  | _, _ => none

namespace Program.Decent

variable {p : Program} {e : p.Event} (h : p.Decent e)

include h

theorem noSpace {peer : Str} (hpeer : peer ∈ p.peers e) : NoSpace peer := by
  cases p with
  | node uv =>
    cases e with
    | start params => exact h peer hpeer
    | _ => cases hpeer
  | _ => cases hpeer

/-- A decent event is admitted, if its peers and its port are in the account. -/
theorem admits {Γ : Rumours} {L : Int32 → Prop}
    (hpeers : ∀ peer ∈ p.peers e,
      Γ.known (Endpoint.ofString peer).myHost (Endpoint.ofString peer).myPort)
    (hport : ∀ port ∈ p.listensOn e, L port) : p.Admits Γ L e := by
  cases p with
  | client uv => cases e <;> exact h
  | server uv => trivial
  | node uv =>
    refine ⟨?_, hport⟩
    cases e with
    | start params => exact ⟨h, fun peer hpeer _ => hpeers peer hpeer⟩
    | _ => trivial

end Program.Decent

section

variable {ι : Type} [DecidableEq ι] (prog : ι → Program)
  (link : ι → ClientId → Option (ι × ClientId)) (es : List (NetworkEvent prog))

/-- The network after these events. -/
def networkRun : NetworkState prog := (network prog link).system.run (networkInit prog) es

/-- A run of a network over IPv4, with decent users and no message that is too long. -/
structure Proper : Prop where
  ipv4 : ∀ i, (prog i).uv.IPv4
  valid : (network prog link).system.Valid (networkInit prog) es
  decent : ∀ e ∈ es, (prog e.1).Decent e.2
  short : ∀ i, (prog i).ShortFrames ((networkRun prog link es).node i)

end

instance decidableShortFrames (p : Program) (s : p.Process) : Decidable (p.ShortFrames s) :=
  inferInstanceAs (Decidable (∀ c < p.count s, ∀ m ∈ (p.conn s c).sent,
    (frame m).length < 2 ^ 31))

/-- What becomes of the frames' lengths: a message once sent stays sent. -/
theorem Program.ShortFrames.before {p : Program} {s : p.Process} {e : p.Event}
    (hsane : p.Sane s) (hstreams : p.EachConn Client.Streams s) (ha : p.system.allowed s e)
    (h : p.ShortFrames (p.system.step s e)) : p.ShortFrames s := by
  intro c hc m hm
  obtain ⟨hc', hgrown⟩ := Program.acts_grow hsane hstreams ha hc
  exact h c hc' m ((hgrown.filterMap _).subset hm)

namespace Proper

variable {ι : Type} [DecidableEq ι] {prog : ι → Program}
  {link : ι → ClientId → Option (ι × ClientId)} {es : List (NetworkEvent prog)}

/-- The lengths are in order all along. -/
theorem along_short (h : Proper prog link es) :
    (network prog link).system.Along (fun n _ => ∀ i, (prog i).ShortFrames (n.node i))
      (networkInit prog) es := by
  refine (System.along_of_run
    (I := fun n => ∀ i, (prog i).Sane (n.node i) ∧ (prog i).EachConn Client.Streams (n.node i))
    -- from the end of the run backwards: what is short after an event was short before it
    (fun n e hI ha j => ?_) (fun n e hI ha hC j => ?_) (fun i => ?_) h.valid h.short).2
  · obtain ⟨i, e⟩ := e
    by_cases hj : j = i
    · subst hj
      rw [Network.node_self]
      exact ⟨Program.sane_step (hI j).1 ha.1,
        Client.Streams.connRule.kept.step (hI j).1 ha.1 (hI j).2⟩
    · rw [Network.node_ne hj]
      exact hI j
  · obtain ⟨i, e⟩ := e
    have hnode := hC j
    by_cases hj : j = i
    · subst hj
      rw [Network.node_self] at hnode
      exact hnode.before (hI j).1 (hI j).2 ha.1
    · rw [Network.node_ne hj] at hnode
      exact hnode
  · exact ⟨(prog i).sane_init, (Fulfils.init .any (fun _ => True) (prog i)).streams⟩

/-- A beginning of a proper run is proper. -/
theorem before {e : NetworkEvent prog} (h : Proper prog link (es ++ [e])) :
    Proper prog link es := by
  obtain ⟨hvalid, -⟩ := (System.valid_append _ _ _ _).mp h.valid
  refine ⟨h.ipv4, hvalid, fun e' he' => h.decent e' (List.mem_append_left _ he'), ?_⟩
  obtain ⟨hshort, -⟩ := ((System.along_append _ _ _ _ _).mp h.along_short).2
  exact hshort

theorem along_meets (h : Proper prog link es) {D : ∀ i, (prog i).Event → Prop}
    (hD : ∀ e ∈ es, D e.1 e.2) : (network prog link).system.Along
      (Network.Meets (fun i => (prog i).ShortFrames) fun i _ e => D i e) (networkInit prog) es :=
  h.along_short.and (System.along_of_mem (P := fun e : NetworkEvent prog => D e.1 e.2) hD)

/-- **Every process keeps to the contract**, with any account that covers what libuv reports and
    what the users bring about, and what was taken in on a connection was put in at its other
    end. -/
theorem fulfils (h : Proper prog link es) {Γ : Rumours} {L : ι → Int32 → Prop}
    (hL : ∀ i port, L i port → Γ.listened port) (hcov : ∀ i, Γ.Covers (prog i).uv)
    (hadm : ∀ e ∈ es, (prog e.1).Admits Γ (L e.1) e.2) :
    (∀ i, Fulfils Γ (L i) (prog i) ((networkRun prog link es).node i)
      ((networkRun prog link es).taken i)) ∧
      Network.Contract.FromWire (network prog link) (networkRun prog link es) := by
  have hcontract := contract prog link hL fun i => ⟨h.ipv4 i, hcov i⟩
  exact ⟨hcontract.run (fun i => Fulfils.init Γ (L i) (prog i)) h.valid (h.along_meets hadm),
    hcontract.fromWire (fun i => Fulfils.init Γ (L i) (prog i)) h.valid (h.along_meets hadm)⟩

/-- … in particular with the widest one. -/
theorem fulfils_any (h : Proper prog link es) :
    (∀ i, Fulfils .any (fun _ => True) (prog i) ((networkRun prog link es).node i)
      ((networkRun prog link es).taken i)) ∧
      Network.Contract.FromWire (network prog link) (networkRun prog link es) :=
  have hcov : ∀ i, Rumours.any.Covers (prog i).uv := fun i c handle =>
    remoteHost_ok (prog i).uv (h.ipv4 i c handle)
  h.fulfils (L := fun _ _ => True) (fun _ _ _ => trivial) hcov fun e he =>
    (h.decent e he).admits
      (fun _ hpeer => Endpoint.ofString_noSpace ((h.decent e he).noSpace hpeer)) fun _ _ => trivial

end Proper

/-! ## What every proper run comes to -/

namespace Program

variable {Γ : Rumours} {L : Int32 → Prop} {p : Program} {s : p.Process} {c : ClientId}

/-- Clients and nodes say nothing that is heard as anything else. -/
theorem Conduct.heard_sent (h : p.Conduct Γ L s) (hp : ∀ uv, p ≠ .server uv) (hc : c < p.count s) :
    (p.conn s c).sent.filterMap heard = (p.conn s c).sent := by
  refine (List.filterMap_congr fun m hm => ?_).trans List.filterMap_some
  have hacts := Client.mem_sent.mp hm
  cases p with
  | client uv => exact heard_of_wf ((h c hc).sent m hacts).1
  | server uv => exact absurd rfl (hp uv)
  | node uv => exact heard_of_wf (h.1.sent c m hacts)

end Program

namespace Proper

variable {ι : Type} [DecidableEq ι] {prog : ι → Program}
  {link : ι → ClientId → Option (ι × ClientId)} {es : List (NetworkEvent prog)}
  (h : Proper prog link es) {i j : ι} {c d : ClientId}

include h

theorem heard_sent (hd : d < (prog j).count ((networkRun prog link es).node j))
    (hp : ∀ uv, prog j ≠ .server uv) :
    ((prog j).conn ((networkRun prog link es).node j) d).sent.filterMap heard =
      ((prog j).conn ((networkRun prog link es).node j) d).sent :=
  (h.fulfils_any.1 j).conduct.heard_sent hp hd

/-- What was handed over are the lines that were taken in. -/
theorem delivered (hc : c < (prog i).count ((networkRun prog link es).node i)) :
    ((prog i).conn ((networkRun prog link es).node i) c).delivered =
      requests ((networkRun prog link es).taken i c) :=
  congrArg Prod.snd ((h.fulfils_any.1 i).inbox c hc)

/-- One end hears a beginning of what the other says. -/
theorem hears (hlink : link i c = some (j, d))
    (hc : c < (prog i).count ((networkRun prog link es).node i))
    (hd : d < (prog j).count ((networkRun prog link es).node j)) :
    ((prog i).conn ((networkRun prog link es).node i) c).delivered <+:
      ((prog j).conn ((networkRun prog link es).node j) d).sent.filterMap heard := by
  have hmouth := h.fulfils_any.1 j
  rw [h.delivered hc, ← requests_frames fun m hm => (hmouth.conduct.sayable hd hm).oneLine]
  refine requests_prefix ?_
  by_cases hnil : (networkRun prog link es).taken i c = []
  · rw [hnil]
    exact List.nil_prefix
  -- the bytes come from the stream of the other end, and that is made of its first frames
  · obtain ⟨q, hq, hprefix⟩ := h.fulfils_any.2 i c hnil
    obtain rfl := Option.some.inj (hlink.symm.trans hq)
    change (networkRun prog link es).taken i c <+:
      if d < (prog j).count ((networkRun prog link es).node j) then _ else [] at hprefix
    rw [if_pos hd] at hprefix
    exact hprefix.trans (hmouth.streams d hd).streamsSent.1.flatten

/-- … and all of it, once everything was taken in from a connection that is still up. -/
theorem hears_all (hc : c < (prog i).count ((networkRun prog link es).node i))
    (hd : d < (prog j).count ((networkRun prog link es).node j))
    (hall : (networkRun prog link es).taken i c =
      ((prog j).conn ((networkRun prog link es).node j) d).streamed.flatten)
    (hup : ((prog j).conn ((networkRun prog link es).node j) d).myUvStream.isSome = true) :
    ((prog i).conn ((networkRun prog link es).node i) c).delivered =
      ((prog j).conn ((networkRun prog link es).node j) d).sent.filterMap heard := by
  have hmouth := h.fulfils_any.1 j
  rw [h.delivered hc, hall, (hmouth.streams d hd).streamsSent.2 hup]
  exact requests_frames fun m hm => (hmouth.conduct.sayable hd hm).oneLine

/-- Whatever is handed over was said at the other end. -/
theorem said (hc : c < (prog i).count ((networkRun prog link es).node i)) {m : Message}
    (hm : m ∈ ((prog i).conn ((networkRun prog link es).node i) c).delivered) :
    ∃ j d, link i c = some (j, d) ∧ d < (prog j).count ((networkRun prog link es).node j) ∧
      ∃ m₀ ∈ ((prog j).conn ((networkRun prog link es).node j) d).sent, heard m₀ = some m := by
  have hdelivered := h.delivered hc
  -- something was taken in, so there is another end, and it exists
  have hne : (networkRun prog link es).taken i c ≠ [] := fun hnil => by
    rw [hnil] at hdelivered
    rw [show ((prog i).conn ((networkRun prog link es).node i) c).delivered = [] from hdelivered]
      at hm
    cases hm
  obtain ⟨⟨j, d⟩, hlink, hprefix⟩ := h.fulfils_any.2 i c hne
  have hd : d < (prog j).count ((networkRun prog link es).node j) := by
    by_contra hd
    change _ <+: if d < (prog j).count ((networkRun prog link es).node j) then _ else [] at hprefix
    rw [if_neg hd, List.prefix_nil] at hprefix
    exact hne hprefix
  exact ⟨j, d, hlink, hd, List.mem_filterMap.mp ((h.hears hlink hc hd).subset hm)⟩

end Proper

/-! ### A client and a server -/

/-- A client and a server … -/
def pair (serves : Bool) : Program := if serves then .server .cooperative else .client .cooperative

/-- … joined by the first connection of each … -/
def joined (serves : Bool) (c : ClientId) : Option (Bool × ClientId) :=
  if c = 0 then some (!serves, 0) else none

/-- … that exchange a handshake, which arrives in two pieces. -/
def greeting : List (NetworkEvent pair) :=
  [⟨true, ServerEvent.listen { listenPort := 5000, listenPortRange := 1 }⟩,
    ⟨true, ServerEvent.startUvLoop⟩,
    ⟨true, ServerEvent.setName⟩,
    ⟨false, ClientEvent.newClient textLocalhost 5000 1⟩,
    ⟨true, ServerEvent.newConnection 0 0⟩,
    ⟨false, ClientEvent.client 0 (.connected 0)⟩,
    ⟨false, ClientEvent.client 0 (.wrote 0)⟩,
    ⟨true, ServerEvent.client 0 (.read 13 (some "HANDSH V01 lo".toList))⟩,
    ⟨true, ServerEvent.client 0 (.read 20 (some "calhost:5000 _NONE_\n".toList))⟩,
    ⟨false, ClientEvent.client 0 (.read 37 (some "HANDSHRESP V01 :5000 127.0.0.1:35091\n".toList))⟩]

theorem proper_greeting : Proper pair joined greeting where
  ipv4 i := by cases i <;> exact fun _ _ => rfl
  valid := by decide
  decent := by decide
  short := by decide

section

variable {ι : Type} [DecidableEq ι] {prog : ι → Program}
  {link : ι → ClientId → Option (ι × ClientId)} {es : List (NetworkEvent prog)}

/-- **No process of a network is ever ended by an exception.** -/
theorem network_running (h : Proper prog link es) (i : ι) :
    (prog i).terminated ((networkRun prog link es).node i) = none :=
  (h.fulfils_any.1 i).running

theorem network_running_greeting :
    (pair true).terminated ((networkRun pair joined greeting).node true) = none :=
  network_running proper_greeting true

/-- **What is handed over at one end of a connection is what was said at the other**: a beginning
    of it, and all of it once everything was taken in from a connection that is still up. What
    clients and nodes say is heard word for word. -/
theorem network_fidelity (h : Proper prog link es) {i j : ι} {c d : ClientId}
    (hlink : link i c = some (j, d)) (hc : c < (prog i).count ((networkRun prog link es).node i))
    (hd : d < (prog j).count ((networkRun prog link es).node j)) :
    let n := networkRun prog link es
    let ear := (prog i).conn (n.node i) c
    let mouth := (prog j).conn (n.node j) d
    ear.delivered <+: mouth.sent.filterMap heard ∧
      (n.taken i c = mouth.streamed.flatten → mouth.myUvStream.isSome = true →
        ear.delivered = mouth.sent.filterMap heard) ∧
      ((∀ uv, prog j ≠ .server uv) → mouth.sent.filterMap heard = mouth.sent) := by
  intro n ear mouth
  exact ⟨h.hears hlink hc hd, h.hears_all hc hd, h.heard_sent hd⟩

theorem network_fidelity_greeting :
    ((pair false).conn ((networkRun pair joined greeting).node false) 0).delivered =
      ((pair true).conn ((networkRun pair joined greeting).node true) 0).sent.filterMap heard :=
  (network_fidelity proper_greeting (i := false) (j := true) (c := 0) (d := 0) rfl (by decide)
    (by decide)).2.1 (by decide) (by decide)

end

end TcpUv
