import TcpUv.Proof.Rest
import Mathlib.Data.List.Forall2

/-!
# Pings and their responses

Clients and nodes ping whom they are connected to, and servers and nodes respond. A response says
which ping it is for, but nobody looks: what matters is that responses come in turn. They do, over
any network: what is handed over on a connection as responses are the responses to the pings that
were sent on it, the first to the first, and once nothing is on its way and nobody has hung up,
no ping is without one (`network_pings`).

The node is where it could fail. It sends its own pings, its gossip and its handshakes on the same
connection; `Responds` is the invariant, and a message breaks it only between being handed over and
being handled.
-/

set_option autoImplicit false

namespace TcpUv

open Lib (Network System IsWord)

/-! ## Pings and responses -/

namespace Message

def ping? : Message → Option Str
  | .ping text => some text
  | _ => none

def pingResponse? : Message → Option Str
  | .pingResponse text => some text
  | _ => none

end Message

/-- The response to the ping, from somebody of any name. -/
def RespondsTo (ping response : Str) : Prop :=
  ∃ name, response = textRespFrom ++ name ++ textTo ++ ping

namespace Client

variable {k k' : Client}

/-- The pings that were handed over. -/
def pinged (k : Client) : List Str := k.delivered.filterMap Message.ping?

/-- The responses that were sent. -/
def responded (k : Client) : List Str := k.sent.filterMap Message.pingResponse?

/-- Every ping was responded to, in its turn. -/
def Responds (k : Client) : Prop := List.Forall₂ RespondsTo k.pinged k.responded

theorem pinged_handOver (m : Message) : (k.handOver m).pinged = k.pinged ++ m.ping?.toList := by
  rw [pinged, delivered_handOver, List.filterMap_append]
  cases hm : m.ping? <;> simp [pinged, hm]

theorem responded_handOver (m : Message) : (k.handOver m).responded = k.responded := by
  simp [responded, sent, handOver, log, setState, Act.sentMessage]

theorem responded_log (m : Message) :
    (k.log (.sendMessage m)).responded = k.responded ++ m.pingResponse?.toList := by
  rw [responded, sent_log, List.filterMap_append]
  cases hm : m.pingResponse? <;> simp [responded, hm]

theorem pinged_log (m : Message) : (k.log (.sendMessage m)).pinged = k.pinged := by
  simp [pinged, delivered, log, Act.handedOver]

namespace Responds

/-- A move that hands over no ping and sends no response. -/
theorem same (hpinged : k'.pinged = k.pinged) (hresponded : k'.responded = k.responded)
    (h : k.Responds) : k'.Responds := by
  unfold Responds
  rw [hpinged, hresponded]
  exact h

theorem quiet (hq : k.Quiet k') (h : k.Responds) : k'.Responds := by
  have hdelivered : k'.delivered = k.delivered := congrArg Prod.snd hq.inbox
  exact h.same (by rw [pinged, hdelivered]; rfl) (by rw [responded, hq.sent]; rfl)

/-- Something else is sent. -/
theorem send {m : Message} (hm : m.pingResponse? = none) (h : k.Responds) :
    (k.log (.sendMessage m)).Responds :=
  h.same (pinged_log m) (by rw [responded_log, hm]; exact List.append_nil _)

/-- Something else is handed over. -/
theorem handOver {m : Message} (hm : m.ping? = none) (h : k.Responds) :
    (k.handOver m).Responds :=
  h.same (by rw [pinged_handOver, hm]; exact List.append_nil _) (responded_handOver m)

/-- A ping, and the response to it. -/
theorem ping (name text : Str) (h : k.Responds) :
    ((k.handOver (.ping text)).log
      (.sendMessage (.pingResponse (textRespFrom ++ name ++ textTo ++ text)))).Responds := by
  unfold Responds
  rw [pinged_log, pinged_handOver, responded_log, responded_handOver]
  exact List.rel_append h (.cons ⟨name, rfl⟩ .nil)

end Responds

end Client

/-! ## A node -/

/-- Every connection of the node. -/
def AllRespond (w : NodeWorld) : Prop := ∀ c < w.next, (w.clients c).Responds

namespace AllRespond

variable {uv : Uv} {w : NodeWorld} {c : ClientId}

theorem modify (h : AllRespond w) {f : Client → Client}
    (hf : (w.clients c).Responds → (f (w.clients c)).Responds) (hc : c < w.next) :
    AllRespond (w.modify c f) := by
  intro d hd
  rw [World.clients_modify]
  split
  · rename_i hdc
    rw [hdc]
    exact hf (h c hc)
  · exact h d hd

/-- A move of one connection that its messages do not show. -/
theorem field (h : AllRespond w) {f : Client → Client} (hf : ∀ k, (f k).acts = k.acts)
    (hc : c < w.next) : AllRespond (w.modify c f) :=
  h.modify (fun h => h.same (by simp only [Client.pinged, Client.delivered, hf])
    (by simp only [Client.responded, Client.sent, hf])) hc

theorem tryCandidate (h : AllRespond w) (key : Str) :
    AllRespond (NodeApp.tryCandidate uv w key) := by
  intro d hd
  by_cases hold : d < w.next
  · rw [NodeApp.clients_tryCandidate uv hold]
    exact h d hold
  · obtain ⟨i, w', hnew, hclient⟩ := NodeApp.tryCandidate_new uv hold hd
    rw [hclient]
    refine Client.Responds.quiet (NodeApp.quiet_connect uv d w') ?_
    rw [hnew]
    exact List.Forall₂.nil

end AllRespond

/-- Nothing but a ping that is handed over leaves the node in debt. -/
theorem guarded_allRespond (uv : Uv) :
    GuardedNode uv (fun m => m.ping? = none) (fun _ => True) (fun _ => True) AllRespond where
  quiet hc hf h := h.modify (fun h => h.quiet (hf _)) hc
  connectionClosed {w c} _ h d hd := by
    obtain ⟨hq, hnext, -, -⟩ := NodeApp.connectionClosed_spec c w
    exact (h d (hnext ▸ hd)).quiet (hq d)
  greets hc hm h := h.modify (fun h => h.send (by rcases hm with rfl | ⟨n, rfl⟩ <;> rfl)) hc
  handshakeResponse hc h := h.modify (fun h => h.send rfl) hc
  -- a node sends a response only when a ping was handed over, which the guard excludes
  pingResponse _ hm _ := by cases hm
  otherPeer hc _ _ h := h.modify (fun h => h.send rfl) hc
  canonical _ _ _ _ hc _ _ _ _ h := h.field (fun _ => rfl) hc
  canonicalCandidate _ _ _ _ _ _ h := h
  candidate _ h := h
  tryCandidate _ h := h.tryCandidate _
  established {w c} hc _ h := h.modify (fun h => by
    obtain ⟨canon, heq⟩ := (w.clients c).establish_eq uv c
    rw [heq]
    have hcanon : ({ w.clients c with myCanonPeerAddr := canon } : Client).Responds :=
      h.same rfl rfl
    exact hcanon.quiet (.setState .connected _)) hc
  buffer f hc h := h.field (fun _ => rfl) hc
  handed hc hm h := h.modify (fun h => h.handOver hm) hc
  accepted {w} _ h d hd := by
    rcases Nat.lt_succ_iff_lt_or_eq.mp hd with hlt | rfl
    · rw [show (NodeApp.inConnectionReceived w.next (w.create _)).clients d = w.clients d from
        World.clients_create_ne w _ (Nat.ne_of_lt hlt)]
      exact h d hlt
    · rw [show (NodeApp.inConnectionReceived w.next (w.create _)).clients w.next = _ from
        World.clients_create_next w _]
      exact List.Forall₂.nil
  named _ _ h := h
  net _ h := h
  started _ h := h

/-- A node pays its debts before the next message is handed over. -/
theorem robustApp_allRespond (uv : Uv) (c : ClientId) :
    RobustApp uv c (fun w : NodeWorld => c < w.next ∧ AllRespond w) := by
  refine (guarded_allRespond uv).robustApp (fun _ hc h => h.field (fun _ => rfl) hc) ?_ c
  intro w c m hm hc h
  cases m with
  | ping text =>
    -- between the hand-over and the send the node is in debt: both are taken as one change
    refine ((guarded_allRespond uv).robust c).sendMessage uv ⟨hc, ?_⟩
    rw [World.modify_modify]
    exact h.modify (fun h => h.ping w.app.myName text) hc
  | _ => exact absurd rfl hm

theorem AllRespond.step {uv : Uv} {w : NodeWorld} {e : NodeEvent}
    (ha : (nodeSystem uv).allowed w e) (h : AllRespond w) : AllRespond (nodeStep uv w e) :=
  (guarded_allRespond uv).step_any (robustApp_allRespond uv) (fun _ h => h) ha h

/-! ## A server -/

/-- A server's answers respond to its pings, in their turn. -/
theorem responds_answers (name addr : Str) (ms : List Message) :
    List.Forall₂ RespondsTo (ms.filterMap Message.ping?)
      ((ms.filterMap (ServerApp.answer name addr)).filterMap Message.pingResponse?) := by
  induction ms with
  | nil => exact .nil
  | cons m ms ih =>
    cases m with
    | handshake v y a =>
      rw [List.filterMap_cons_none (f := Message.ping?) rfl]
      -- neither a handshake nor its answer, if there is one, is counted
      by_cases hv : v = textV01
      · have hanswer : ServerApp.answer name addr (.handshake v y a) =
            some (.handshakeResponse textV01 name addr) := if_pos hv
        rw [List.filterMap_cons_some (f := ServerApp.answer name addr) hanswer,
          List.filterMap_cons_none (f := Message.pingResponse?) rfl]
        exact ih
      · have hanswer : ServerApp.answer name addr (.handshake v y a) = none := if_neg hv
        rw [List.filterMap_cons_none (f := ServerApp.answer name addr) hanswer]
        exact ih
    | ping text =>
      rw [List.filterMap_cons_some (f := Message.ping?) rfl,
        List.filterMap_cons_some (f := ServerApp.answer name addr) rfl,
        List.filterMap_cons_some (f := Message.pingResponse?) rfl]
      exact .cons ⟨name, rfl⟩ ih
    | _ => exact ih

theorem Client.Replied.responds {name : Str} {k : Client} (h : k.Replied name) : k.Responds := by
  obtain ⟨early, late, hdelivered, hsent, -⟩ := h.answered
  unfold Client.Responds Client.pinged Client.responded
  rw [hdelivered, hsent, List.filterMap_append, List.filterMap_append]
  exact List.rel_append (responds_answers _ _ early) (responds_answers _ _ late)

/-! ## In a network -/

/-- What a server without a name answers to a handshake is not heard; its other answers are. -/
theorem bind_heard_answer {name addr : Str} (hname : name = [] ∨ IsWord name)
    (haddr : IsWord addr) {m m' : Message} (hm : m.WF) (ha : ServerApp.answer name addr m = some m')
    {β : Type} {f : Message → Option β} (hf : ∀ v y a, f (.handshakeResponse v y a) = none) :
    (heard m').bind f = f m' := by
  cases m with
  | handshake v y a =>
    rw [ServerApp.answer] at ha
    split at ha
    · obtain rfl := Option.some.inj ha
      rcases hname with rfl | hname
      · rw [hf, heard, lineMessage, parseLine_nameless haddr]
        rfl
      · rw [heard_of_wf (wf_handshakeResponse hname haddr)]
        rfl
    · cases ha
  | ping text =>
    rw [← Option.some.inj ha,
      heard_of_wf (wf_pingResponse hname (hm text (by simp [Message.fields])))]
    rfl
  | _ => cases ha

theorem Program.responds_node {p : Program} {uv : Uv} (hp : p = .node uv) {es : List p.Event}
    (hv : p.system.Valid p.init es) {c : ClientId} (hc : c < p.count (p.system.run p.init es)) :
    (p.conn (p.system.run p.init es) c).Responds := by
  subst hp
  have hinit : AllRespond NodeWorld.init := fun c hc => absurd hc (Nat.not_lt_zero c)
  exact System.run_invariant (I := AllRespond) (fun _ _ h ha => h.step ha) hinit hv c hc

namespace Proper

variable {ι : Type} [DecidableEq ι] {prog : ι → Program}
  {link : ι → ClientId → Option (ι × ClientId)} {es : List (NetworkEvent prog)}
  (h : Proper prog link es) {j : ι} {d : ClientId}

include h

/-- Whoever is no client responds to every ping. -/
theorem responds (hj : ∀ uv, prog j ≠ .client uv)
    (hd : d < (prog j).count ((networkRun prog link es).node j)) :
    ((prog j).conn ((networkRun prog link es).node j) d).Responds := by
  have hcases : (∃ uv, prog j = .server uv) ∨ ∃ uv, prog j = .node uv := by
    generalize prog j = p at hj
    cases p with
    | client uv => exact absurd rfl (hj uv)
    | server uv => exact Or.inl ⟨uv, rfl⟩
    | node uv => exact Or.inr ⟨uv, rfl⟩
  rcases hcases with ⟨uv, hserver⟩ | ⟨uv, hnode⟩
  · exact (h.replied hserver hd).responds
  · obtain ⟨hv, hrun⟩ := (network prog link).node_run j h.valid
    change (networkRun prog link es).node j = _ at hrun
    rw [hrun] at hd ⊢
    exact Program.responds_node hnode hv hd

/-- The client program responds to nothing. -/
theorem responded_client {uv : Uv} (hj : prog j = .client uv)
    (hd : d < (prog j).count ((networkRun prog link es).node j)) :
    ((prog j).conn ((networkRun prog link es).node j) d).responded = [] := by
  have hpolite := (h.fulfils_any.1 j).conduct.polite hj hd
  refine List.filterMap_eq_nil_iff.mpr fun m hm => ?_
  have hclient := (hpolite.sent m (Client.mem_sent.mp hm)).2
  cases m with
  | pingResponse text => exact absurd hclient id
  | _ => rfl

/-- Of what was said, only a handshake response may be lost on the ear. -/
theorem filterMap_heard (hd : d < (prog j).count ((networkRun prog link es).node j)) {β : Type}
    {f : Message → Option β} (hf : ∀ v y a, f (.handshakeResponse v y a) = none) :
    (((prog j).conn ((networkRun prog link es).node j) d).sent.filterMap heard).filterMap f =
      ((prog j).conn ((networkRun prog link es).node j) d).sent.filterMap f := by
  by_cases hserver : ∃ uv, prog j = .server uv
  · obtain ⟨uv, hserver⟩ := hserver
    rw [List.filterMap_filterMap]
    refine List.filterMap_congr fun m' hm' => ?_
    obtain ⟨name, m, hname, hwf, hanswer⟩ := h.answer_of_sent hserver hd hm'
    exact bind_heard_answer hname ((h.fulfils_any.1 j).conduct.words hserver hd).2 hwf hanswer hf
  · rw [h.heard_sent hd fun uv hp => hserver ⟨uv, hp⟩]

end Proper

section

variable {ι : Type} [DecidableEq ι] {prog : ι → Program}
  {link : ι → ClientId → Option (ι × ClientId)} {es : List (NetworkEvent prog)}

/-- **Responses come in turn**: the responses handed over on a connection respond to the first
    pings that were sent on it, one each; and to all of them, once nothing is on its way between
    two ends that are up, if the other end is no client. -/
theorem network_pings (h : Proper prog link es) {i j : ι} {c d : ClientId}
    (hlink : link i c = some (j, d)) (hback : link j d = some (i, c))
    (hc : c < (prog i).count ((networkRun prog link es).node i))
    (hd : d < (prog j).count ((networkRun prog link es).node j)) :
    let n := networkRun prog link es
    let asker := (prog i).conn (n.node i) c
    let answerer := (prog j).conn (n.node j) d
    let pings := asker.sent.filterMap Message.ping?
    let responses := asker.delivered.filterMap Message.pingResponse?
    (∃ answered, answered <+: pings ∧ List.Forall₂ RespondsTo answered responses) ∧
      ((∀ uv, prog j ≠ .client uv) → n.taken i c = answerer.streamed.flatten →
        n.taken j d = asker.streamed.flatten → asker.myUvStream.isSome = true →
        answerer.myUvStream.isSome = true → List.Forall₂ RespondsTo pings responses) := by
  intro n asker answerer pings responses
  have hpings := h.filterMap_heard hc (f := Message.ping?) fun _ _ _ => rfl
  have hresponses := h.filterMap_heard hd (f := Message.pingResponse?) fun _ _ _ => rfl
  refine ⟨?_, fun hj hquiet hquiet' hup hup' => ?_⟩
  -- a client has answered nothing, anyone else all that was handed over to it
  · have hanswered : ∃ answered, answered <+: answerer.pinged ∧
        List.Forall₂ RespondsTo answered answerer.responded := by
      by_cases hclient : ∃ uv, prog j = .client uv
      · obtain ⟨uv, hclient⟩ := hclient
        refine ⟨[], List.nil_prefix, ?_⟩
        rw [show answerer.responded = [] from h.responded_client hclient hd]
        exact .nil
      · exact ⟨_, List.prefix_rfl, h.responds (fun uv hj => hclient ⟨uv, hj⟩) hd⟩
    have hpinged : answerer.pinged <+: pings := by
      rw [show pings = _ from hpings.symm]
      exact (h.hears hback hd hc).filterMap _
    have hheard : responses <+: answerer.responded := by
      rw [show answerer.responded = _ from hresponses.symm]
      exact (h.hears hlink hc hd).filterMap _
    obtain ⟨answered, hbegins, hall⟩ := hanswered
    -- as many pings as responses have come back, and those are the first
    refine ⟨answered.take responses.length,
      (List.take_prefix _ _).trans (hbegins.trans hpinged), ?_⟩
    have hfirst := List.forall₂_take responses.length hall
    rwa [← List.prefix_iff_eq_take.mp hheard] at hfirst
  · have hpinged : answerer.pinged = pings :=
      (congrArg _ (h.hears_all hd hc hquiet' hup)).trans hpings
    have hheard : responses = answerer.responded :=
      (congrArg _ (h.hears_all hc hd hquiet hup')).trans hresponses
    rw [← hpinged, hheard]
    exact h.responds hj hd

theorem network_pings_conversation :
    let asker := (lenientPair false).conn
      ((networkRun lenientPair joined conversation).node false) 0
    ∃ answered, answered <+: asker.sent.filterMap Message.ping? ∧
      List.Forall₂ RespondsTo answered (asker.delivered.filterMap Message.pingResponse?) :=
  (network_pings proper_conversation (i := false) (j := true) (c := 0) (d := 0) rfl rfl
    (by decide +kernel) (by decide +kernel)).1

end

end TcpUv
