import TcpUv.Proof.Pings
import TcpUv.Proof.Provenance

/-!
# What is told is known

A node that is told about an endpoint has it among its candidates from then on: the table only
grows, whatever becomes of the attempts to connect and of the connection the endpoint came in on
(`Remembers`). In a network this is how endpoints spread. What was told at one end of a
connection is known at the other once everything was taken in (`network_spreads`); that nothing
else is known is `network_provenance`.
-/

set_option autoImplicit false

namespace TcpUv

open Lib (SortedMap System Network)

/-! ## The table of candidates -/

namespace NodeApp

theorem mem_keys_addOutPeerCandidate (a : NodeApp) (host : Str) (port : Int32) (toTry : Int)
    (key : Str) : key ∈ (a.addOutPeerCandidate host port toTry).myPeerCands.keys ↔
      key = endpointText host port ∨ key ∈ a.myPeerCands.keys := by
  unfold addOutPeerCandidate
  dsimp only
  cases hfind : a.myPeerCands.find? (endpointText host port) with
  | some i =>
    have hold : endpointText host port ∈ a.myPeerCands.keys :=
      (SortedMap.mem_keys_iff _ _).mpr ⟨i, hfind⟩
    show key ∈ (a.myPeerCands.modify _ _).keys ↔ _
    rw [SortedMap.keys_modify]
    exact ⟨Or.inr, fun h => h.elim (fun hkey => hkey ▸ hold) id⟩
  | none => exact SortedMap.mem_keys_insert _ _ _ _

/-- A candidate is never dropped. -/
theorem candsInvariant_known (key : Str) :
    CandsInvariant (fun _ _ _ => True) (fun _ _ => True) (fun t => key ∈ t.keys) where
  tried _ h := by rwa [SortedMap.keys_modify]
  connected _ h := by rwa [SortedMap.keys_modify]
  message {a host port} _ h := (mem_keys_addOutPeerCandidate a host port 1 key).mpr (Or.inr h)
  started _ h := by
    refine startCandidates_preserve (I := fun a : NodeApp => key ∈ a.myPeerCands.keys)
      (fun {a} port h => ?_) (fun p _ {a} h => ?_) h
    · exact (mem_keys_addOutPeerCandidate a _ port 1 key).mpr (Or.inr h)
    · exact (mem_keys_addOutPeerCandidate a _ _ _ key).mpr (Or.inr h)

end NodeApp

open NodeApp

/-! ## A node -/

def Message.otherPeer? : Message → Option (Str × Int32)
  | .otherPeer host port => some (host, port)
  | _ => none

/-- The endpoints a connection was told about. -/
def Client.toldPeers (k : Client) : List (Str × Int32) := k.delivered.filterMap Message.otherPeer?

theorem Client.toldPeers_handOver (k : Client) (m : Message) :
    (k.handOver m).toldPeers = k.toldPeers ++ m.otherPeer?.toList := by
  rw [toldPeers, delivered_handOver, List.filterMap_append]
  cases hm : m.otherPeer? <;> simp [toldPeers, hm]

/-- Everything the node was told about is among its candidates. -/
def Remembers (w : NodeWorld) : Prop :=
  ∀ c < w.next, ∀ e ∈ (w.clients c).toldPeers, endpointText e.1 e.2 ∈ w.app.myPeerCands.keys

namespace Remembers

variable {uv : Uv} {w w' : NodeWorld} {c : ClientId}

/-- Nobody was told more, and nothing was dropped. -/
theorem kept (hclients : ∀ c < w'.next, ∀ e ∈ (w'.clients c).toldPeers,
      c < w.next ∧ e ∈ (w.clients c).toldPeers)
    (hkeys : ∀ key ∈ w.app.myPeerCands.keys, key ∈ w'.app.myPeerCands.keys) (h : Remembers w) :
    Remembers w' := fun c hc e he =>
  hkeys _ (h c (hclients c hc e he).1 e (hclients c hc e he).2)

theorem modify (h : Remembers w) {f : Client → Client}
    (hf : ∀ k, (f k).delivered = k.delivered) : Remembers (w.modify c f) := by
  refine kept (w := w) (fun d hd e he => ⟨hd, ?_⟩) (fun _ hkey => hkey) h
  rw [World.clients_modify] at he
  split at he
  · unfold Client.toldPeers at he ⊢
    rwa [hf] at he
  · exact he

theorem log (h : Remembers w) (m : Message) : Remembers (w.modify c (·.log (.sendMessage m))) :=
  h.modify fun k => by simp [Client.delivered, Client.log, Act.handedOver]

theorem addOutPeerCandidate (h : Remembers w) (host : Str) (port : Int32) (toTry : Int) :
    Remembers { w with app := w.app.addOutPeerCandidate host port toTry } :=
  fun c hc e he => (mem_keys_addOutPeerCandidate _ _ _ _ _).mpr (Or.inr (h c hc e he))

theorem tryCandidate (h : Remembers w) (key : Str) : Remembers (NodeApp.tryCandidate uv w key) := by
  refine h.kept (fun d hd e he => ?_) fun key' => (candsInvariant_known key').tryCandidate uv key
  by_cases hold : d < w.next
  · rw [clients_tryCandidate uv hold] at he
    exact ⟨hold, he⟩
  · obtain ⟨i, w', hnew, hclient⟩ := tryCandidate_new uv hold hd
    -- a connection just dialled has been told nothing
    have hinbox := (quiet_connect uv d w').inbox
    rw [hnew] at hinbox
    have hnone : ((NodeApp.tryCandidate uv w key).clients d).delivered = [] := by
      rw [hclient]
      exact congrArg Prod.snd hinbox
    rw [Client.toldPeers, hnone] at he
    cases he

end Remembers

/-- Nothing but an `OPEER` that is handed over leaves the node without a candidate it was told
    about. -/
theorem guarded_remembers (uv : Uv) :
    GuardedNode uv (fun m => m.otherPeer? = none) (fun _ => True) (fun _ => True) Remembers where
  quiet _ hf h := h.modify fun k => congrArg Prod.snd (hf k).inbox
  connectionClosed {w c} _ h := by
    obtain ⟨hq, hnext, -, happ⟩ := connectionClosed_spec c w
    refine h.kept (fun d hd e he => ⟨hnext ▸ hd, ?_⟩) fun key hkey => by rw [happ]; exact hkey
    unfold Client.toldPeers at he ⊢
    rwa [show ((connectionClosed c w).clients d).delivered = _ from
      congrArg Prod.snd (hq d).inbox] at he
  greets _ _ h := h.log _
  handshakeResponse _ h := h.log _
  pingResponse _ _ h := h.log _
  otherPeer _ _ _ h := h.log _
  canonical _ _ _ _ _ _ _ _ _ h := h.modify fun _ => rfl
  canonicalCandidate _ _ _ _ _ _ h := h.addOutPeerCandidate _ _ _
  -- a candidate is added by the handler of an `OPEER`, which the guard excludes
  candidate hm _ := by cases hm
  tryCandidate _ h := h.tryCandidate _
  established _ _ h := h.modify fun k => by
    obtain ⟨canon, heq⟩ := k.establish_eq uv _
    rw [heq]
    simp [Client.delivered, Client.setState, Act.handedOver]
  buffer _ _ h := h.modify fun _ => rfl
  handed {w c m} hc hm h d hd e he := by
    rw [World.clients_modify] at he
    split at he
    · rename_i hdc
      rw [hdc, Client.toldPeers_handOver, hm, Option.toList_none, List.append_nil] at he
      exact h c hc e he
    · exact h d hd e he
  accepted {w} _ h d hd e he := by
    rcases Nat.lt_succ_iff_lt_or_eq.mp hd with hlt | rfl
    · rw [show (inConnectionReceived w.next (w.create _)).clients d = w.clients d from
        World.clients_create_ne w _ (Nat.ne_of_lt hlt)] at he
      exact h d hlt e he
    · rw [show (inConnectionReceived w.next (w.create _)).clients w.next = _ from
        World.clients_create_next w _] at he
      cases he
  named _ _ h := h
  net _ h := h
  started {w params} _ h := fun c hc e he => (candsInvariant_known _).started trivial (h c hc e he)

/-- … and its handler adds that candidate. -/
theorem robustApp_remembers (uv : Uv) (c : ClientId) :
    RobustApp uv c (fun w : NodeWorld => c < w.next ∧ Remembers w) := by
  refine (guarded_remembers uv).robustApp (fun _ _ h => h.modify fun _ => rfl) ?_ c
  intro w c m hm hc h
  cases m with
  | otherPeer host port =>
    have hadded : Remembers { w.modify c (Client.handOver (.otherPeer host port)) with
        app := w.app.addOutPeerCandidate host port 1 } := by
      intro d hd e he
      refine (mem_keys_addOutPeerCandidate _ _ _ _ _).mpr ?_
      change e ∈ ((w.modify c (Client.handOver _)).clients d).toldPeers at he
      rw [World.clients_modify] at he
      split at he
      · rename_i hdc
        rw [hdc, Client.toldPeers_handOver] at he
        -- an endpoint told before is kept, the one told just now was added
        rcases List.mem_append.mp he with hold | hnew
        · exact Or.inr (h c hc e hold)
        · rw [List.mem_singleton.mp hnew]
          exact Or.inl rfl
      · exact Or.inr (h d hd e he)
    have hnext := RobustNode.next_tryOutConnections uv
      { w.modify c (Client.handOver (.otherPeer host port)) with
        app := w.app.addOutPeerCandidate host port 1 }
    exact ⟨Nat.lt_of_lt_of_le hc hnext,
      (guarded_remembers uv).tryOutConnections (Or.inl (Nat.lt_of_le_of_lt (Nat.zero_le c) hc))
        hadded⟩
  | _ => exact absurd rfl hm

theorem Remembers.step {uv : Uv} {w : NodeWorld} {e : NodeEvent}
    (ha : (nodeSystem uv).allowed w e) (h : Remembers w) : Remembers (nodeStep uv w e) :=
  (guarded_remembers uv).step_any (robustApp_remembers uv) (fun _ h => h) ha h

/-! ## In a network -/

namespace Program

/-- The endpoints a program would connect to. -/
def candidates : (p : Program) → p.Process → List Str
  | .node _, w => w.app.myPeerCands.keys
  | _, _ => []

theorem remembers {p : Program} {uv : Uv} (hp : p = .node uv) {es : List p.Event}
    (hv : p.system.Valid p.init es) {c : ClientId} (hc : c < p.count (p.system.run p.init es))
    {e : Str × Int32} (he : e ∈ (p.conn (p.system.run p.init es) c).toldPeers) :
    endpointText e.1 e.2 ∈ p.candidates (p.system.run p.init es) := by
  subst hp
  have hinit : Remembers NodeWorld.init := fun c hc => absurd hc (Nat.not_lt_zero c)
  exact System.run_invariant (I := Remembers) (fun _ _ h ha => h.step ha) hinit hv c hc e he

end Program

section

variable {ι : Type} [DecidableEq ι] {prog : ι → Program}
  {link : ι → ClientId → Option (ι × ClientId)} {es : List (NetworkEvent prog)}

/-- **What is told is known**: a node has every endpoint that was handed over to it among its
    candidates; and so every endpoint that was told on a connection whose stream it has taken in
    as a whole, as long as that is up. -/
theorem network_spreads (h : Proper prog link es) {i j : ι} {c d : ClientId} {uv : Uv}
    (hi : prog i = .node uv) (hc : c < (prog i).count ((networkRun prog link es).node i))
    (hd : d < (prog j).count ((networkRun prog link es).node j)) {host : Str} {port : Int32} :
    let n := networkRun prog link es
    let ear := (prog i).conn (n.node i) c
    let mouth := (prog j).conn (n.node j) d
    (.otherPeer host port ∈ ear.delivered →
        endpointText host port ∈ (prog i).candidates (n.node i)) ∧
      (n.taken i c = mouth.streamed.flatten → mouth.myUvStream.isSome = true →
        .otherPeer host port ∈ mouth.sent →
        endpointText host port ∈ (prog i).candidates (n.node i)) := by
  intro n ear mouth
  have hknown : (host, port) ∈ ear.toldPeers →
      endpointText host port ∈ (prog i).candidates (n.node i) := by
    obtain ⟨hv, hrun⟩ := (network prog link).node_run i h.valid
    change n.node i = _ at hrun
    change c < (prog i).count (n.node i) at hc
    change (host, port) ∈ ((prog i).conn (n.node i) c).toldPeers → _
    rw [hrun] at hc ⊢
    exact Program.remembers hi hv hc
  refine ⟨fun hm => hknown ?_, fun hquiet hup hm => hknown ?_⟩
  · exact List.mem_filterMap.mpr ⟨_, hm, rfl⟩
  · have hpeers : ear.toldPeers = mouth.sent.filterMap Message.otherPeer? :=
      (congrArg _ (h.hears_all hc hd hquiet hup)).trans (h.filterMap_heard hd fun _ _ _ => rfl)
    rw [hpeers]
    exact List.mem_filterMap.mpr ⟨_, hm, rfl⟩

theorem network_spreads_gossip : endpointText "127.0.0.1".toList 5001 ∈
    (nodes true).candidates ((networkRun nodes dialledIn gossip).node true) :=
  (network_spreads proper_gossip (i := true) (j := false) (c := 1) (d := 0) rfl
    (by decide +kernel) (by decide +kernel)).2 (by decide +kernel) (by decide +kernel)
    (by decide +kernel)

end

end TcpUv
