import TcpUv.Proof.Budgets
import Mathlib.Algebra.Order.BigOperators.Group.List
import Mathlib.Algebra.Order.Ring.Nat

/-!
# Connections a node was told to make

A node connects to what it is told about, and nothing it does by itself makes it connect again: of
the connections it makes to an endpoint each was paid for, by the parameters it was started with
or by a message that named the endpoint (`dials_paid`). A table of candidates with counters
stands in between, whose budgets gossip may raise and lower; what the proof keeps is the sum
of the connections made and the tries left (`Booked`). A message raises it by one at most, and a
try moves one from the right to the left.
-/

set_option autoImplicit false

namespace TcpUv

open Lib NodeApp

/-! ## The account -/

/-- The message names the endpoint, to a node that has it from a connection of this address. -/
def Message.names (key addr : Str) : Message → Bool
  | .otherPeer host port => endpointText host port = key
  | .handshake myVersion _ myAddr =>
      if myVersion = textV01 ∧ myAddr.take 1 = [':'] then
        match stoi (myAddr.drop 1) with
        | .error _ => false
        | .ok port => endpointText (Endpoint.ofString addr).myHost port = key
      else false
  | _ => false

/-- How often the node was told about the endpoint on a connection … -/
def Client.tellings (key : Str) (k : Client) : Nat := k.delivered.countP (·.names key k.myPeerAddr)

/-- … and on all of them. -/
def timesTold (key : Str) (w : NodeWorld) : Nat :=
  ((List.range w.next).map fun c => (w.clients c).tellings key).sum

/-- The tries an event brings with it: one for a built-in candidate, a million for a `-peer`. -/
def NodeEvent.tries (key : Str) : NodeEvent → Nat
  | .start params =>
      (if endpointText textLocalhost 5000 = key then 1 else 0) +
      (if endpointText textLocalhost 5001 = key then 1 else 0) +
      1000000 * (params.extraPeers.filter fun p => 0 < p.length).countP fun p =>
        (Endpoint.ofString p).getEndpoint = key
  | _ => 0

/-- The tries that are left of a candidate. -/
def PeerCandidateInfo.allowance (i : PeerCandidateInfo) : Nat :=
  (max 1 i.myToTry - i.myConnTryCount).toNat

def allowance (key : Str) (t : Candidates) : Nat :=
  (t.find? key).elim 0 PeerCandidateInfo.allowance

/-- The books of an endpoint balance, when `n` tries came with the starts, and one `more` is
    reserved for a message. -/
structure Booked (key : Str) (n more : Nat) (w : NodeWorld) : Prop where
  tables : PeerTables w
  balance : dials key w + allowance key w.app.myPeerCands + more ≤ timesTold key w + n

section

variable {key : Str} {n more : Nat} {w w' : NodeWorld} {t : Candidates}

theorem allowance_some {i : PeerCandidateInfo} (h : t.find? key = some i) :
    allowance key t = i.allowance := by
  rw [allowance, h]
  rfl

/-- An addition brings what it brings. -/
theorem allowance_addOutPeerCandidate {a : NodeApp} (host : Str) (port : Int32) {toTry : Int}
    (hpos : 1 ≤ toTry) (hcounted : ∀ i, a.myPeerCands.find? key = some i → i.Counted) :
    allowance key (a.addOutPeerCandidate host port toTry).myPeerCands ≤
      allowance key a.myPeerCands + if endpointText host port = key then toTry.toNat else 0 := by
  by_cases hk : key = endpointText host port
  · subst hk
    rw [if_pos rfl, allowance_some (find?_addOutPeerCandidate_self a)]
    refine le_trans ?_ (Nat.le_add_left _ _)
    unfold PeerCandidateInfo.allowance
    cases hfind : a.myPeerCands.find? (endpointText host port) with
    | none =>
      dsimp only
      omega
    | some i =>
      have htries := (hcounted i hfind).1.trans (hcounted i hfind).2.1
      dsimp only
      omega
  · rw [allowance, allowance, find?_addOutPeerCandidate_ne a hk]
    exact Nat.le_add_right _ _

/-- A try spends one. -/
theorem allowance_tried (uv : Uv) {i : PeerCandidateInfo}
    (hfind : w.app.myPeerCands.find? key = some i) (hwill : WillTry w key i) (h : PeerTables w) :
    allowance key (tryCandidate uv w key).app.myPeerCands + 1 ≤
      allowance key w.app.myPeerCands := by
  obtain ⟨i', hfind', hcase⟩ := (roundMade_tryCandidate uv w key).tried i hfind hwill
  have hcounted := (h.counted key i hfind).2.2
  have hmore : i.myConnTryCount = 0 ∨ i.myConnTryCount < i.myToTry := hwill.1
  rw [allowance_some hfind, allowance_some hfind']
  have hsame : i'.myToTry = i.myToTry ∧ i'.myConnTryCount = i.myConnTryCount + 1 := by
    rcases hcase with rfl | rfl
    · exact ⟨rfl, rfl⟩
    · exact ⟨rfl, rfl⟩
  unfold PeerCandidateInfo.allowance
  rw [hsame.1, hsame.2]
  omega

/-- No round adds one. -/
theorem allowance_tryCandidate (uv : Uv) (key key' : Str) (w : NodeWorld) (h : PeerTables w) :
    allowance key (tryCandidate uv w key').app.myPeerCands ≤ allowance key w.app.myPeerCands := by
  by_cases hk : key = key'
  · subst hk
    by_cases hwill : ∃ i, w.app.myPeerCands.find? key = some i ∧ WillTry w key i
    · obtain ⟨i, hfind, hwill⟩ := hwill
      have hspent := allowance_tried uv hfind hwill h
      omega
    · rw [(roundMade_tryCandidate uv w key).skipped fun i hfind hw => hwill ⟨i, hfind, hw⟩]
  · rw [allowance, allowance, find?_tryCandidate_ne uv hk]

/-- What is told is not untold. -/
theorem timesTold_le (hnext : w'.next = w.next)
    (hclients : ∀ c < w.next, (w.clients c).tellings key ≤ (w'.clients c).tellings key) :
    timesTold key w ≤ timesTold key w' := by
  unfold timesTold
  rw [hnext]
  exact List.sum_le_sum fun c hc => hclients c (List.mem_range.mp hc)

theorem timesTold_lt (hnext : w'.next = w.next)
    (hclients : ∀ c < w.next, (w.clients c).tellings key ≤ (w'.clients c).tellings key)
    {c : ClientId} (hc : c < w.next)
    (hmore : (w.clients c).tellings key < (w'.clients c).tellings key) :
    timesTold key w < timesTold key w' := by
  unfold timesTold
  rw [hnext]
  exact List.sum_lt_sum _ _ (fun d hd => hclients d (List.mem_range.mp hd))
    ⟨c, List.mem_range.mpr hc, hmore⟩

theorem timesTold_succ (hnext : w'.next = w.next + 1)
    (hclients : ∀ c < w.next, (w.clients c).tellings key ≤ (w'.clients c).tellings key) :
    timesTold key w ≤ timesTold key w' := by
  unfold timesTold
  rw [hnext, List.range_succ, List.map_append, List.sum_append]
  exact (List.sum_le_sum fun c hc => hclients c (List.mem_range.mp hc)).trans
    (Nat.le_add_right _ _)

end

/-! ## The moves of a node -/

namespace Booked

variable {uv : Uv} {key : Str} {n more : Nat} {w w' : NodeWorld}

/-- A move that dials nobody, leaves the candidates alone, and may tell something. -/
theorem same (htables : PeerTables w') (hdials : dials key w' = dials key w)
    (hcands : w'.app.myPeerCands = w.app.myPeerCands) (htold : timesTold key w ≤ timesTold key w')
    (h : Booked key n more w) : Booked key n more w' where
  tables := htables
  balance := by
    rw [hdials, hcands]
    exact h.balance.trans (Nat.add_le_add_right htold n)

/-- A change of one connection. -/
theorem modify (h : Booked key n more w) (c : ClientId) {f : Client → Client}
    (hf : ∀ k, (f k).kind = k.kind ∧ (f k).myPeerAddr = k.myPeerAddr)
    (hgiven : ∀ k, k.delivered <+: (f k).delivered) : Booked key n more (w.modify c f) := by
  have hdials : dials key (w.modify c f) = dials key w := dials_congr rfl fun d _ => by
    rw [World.clients_modify]
    split
    · exact hf _
    · exact ⟨rfl, rfl⟩
  have htold : timesTold key w ≤ timesTold key (w.modify c f) := timesTold_le rfl fun d _ => by
    rw [World.clients_modify]
    split
    · unfold Client.tellings
      rw [(hf _).2]
      exact (hgiven _).sublist.countP_le
    · exact le_rfl
  exact h.same (h.tables.modify c fun k => (hf k).2) hdials rfl htold

theorem quiet (h : Booked key n more w) (c : ClientId) {f : Client → Client}
    (hf : ∀ k : Client, k.Quiet (f k)) : Booked key n more (w.modify c f) :=
  h.modify c (fun k => ⟨(hf k).kind, (hf k).myPeerAddr⟩) fun k => by
    obtain ⟨l, hl, -⟩ := (hf k).acts
    rw [Client.delivered, Client.delivered, hl, List.filterMap_append]
    exact List.prefix_append _ _

theorem log (h : Booked key n more w) (c : ClientId) (a : Act) :
    Booked key n more (w.modify c (·.log a)) :=
  h.modify c (fun _ => ⟨rfl, rfl⟩) fun k => by
    rw [Client.delivered, Client.delivered, Client.log, List.filterMap_append]
    exact List.prefix_append _ _

theorem connectionClosed (h : Booked key n more w) (c : ClientId) :
    Booked key n more (NodeApp.connectionClosed c w) := by
  obtain ⟨hquiet, hnext, -, happ⟩ := connectionClosed_spec c w
  refine h.same (h.tables.connectionClosed c)
    (dials_congr hnext fun d _ => ⟨(hquiet d).kind, (hquiet d).myPeerAddr⟩) (by rw [happ])
    (timesTold_le hnext fun d _ => ?_)
  obtain ⟨l, hl, -⟩ := (hquiet d).acts
  unfold Client.tellings
  rw [(hquiet d).myPeerAddr, Client.delivered, Client.delivered, hl, List.filterMap_append]
  exact (List.sublist_append_left _ _).countP_le

/-- A message is handed over: if it names the endpoint, a try is reserved for it. -/
theorem handOver (h : Booked key n 0 w) {c : ClientId} (hc : c < w.next) (m : Message) :
    Booked key n (if m.names key (w.clients c).myPeerAddr then 1 else 0)
      (w.modify c (Client.handOver m)) := by
  have hgiven := Client.delivered_handOver m
  have hsame : Booked key n 0 (w.modify c (Client.handOver m)) :=
    h.modify c (fun _ => ⟨rfl, rfl⟩) fun k => by
      rw [hgiven]
      exact List.prefix_append _ _
  split
  · rename_i hnames
    -- one telling more, and nothing tried for it yet: the difference is the reserve
    refine ⟨hsame.tables, ?_⟩
    have htold : timesTold key w < timesTold key (w.modify c (Client.handOver m)) := by
      refine timesTold_lt rfl (fun d _ => ?_) hc ?_
      · rw [World.clients_modify]
        split
        · unfold Client.tellings
          rw [hgiven, List.countP_append]
          exact Nat.le_add_right _ _
        · exact le_rfl
      · rw [World.clients_modify_self]
        unfold Client.tellings
        rw [hgiven, List.countP_append]
        refine Nat.lt_add_of_pos_right ?_
        rw [List.countP_singleton]
        exact (if_pos hnames).symm ▸ Nat.zero_lt_one
    have hdials : dials key (w.modify c (Client.handOver m)) = dials key w :=
      dials_congr rfl fun d _ => by
        rw [World.clients_modify]
        split
        · exact ⟨rfl, rfl⟩
        · exact ⟨rfl, rfl⟩
    have hbalance := h.balance
    rw [hdials]
    show dials key w + allowance key w.app.myPeerCands + 1 ≤ _
    omega
  · exact hsame

/-- An addition, with what was reserved for it. -/
theorem addOutPeerCandidate (h : Booked key n more w) (host : Str) (port : Int32) {toTry : Int}
    (hpos : 1 ≤ toTry) (hpaid : endpointText host port = key → toTry.toNat ≤ more) :
    Booked key n 0 { w with app := w.app.addOutPeerCandidate host port toTry } where
  tables := h.tables.addOutPeerCandidate host port toTry (by omega)
  balance := by
    have hadded := allowance_addOutPeerCandidate host port hpos fun i => h.tables.counted key i
    have hbalance := h.balance
    show dials key w + allowance key (w.app.addOutPeerCandidate host port toTry).myPeerCands + 0 ≤
      timesTold key w + n
    -- an addition to another endpoint needs no reserve
    split at hadded
    · rename_i hkey
      have hpaid := hpaid hkey
      omega
    · omega

/-- An incoming connection makes no outgoing one. -/
theorem inConnectionReceived (h : Booked key n more w) (addr : Str) :
    Booked key n more (NodeApp.inConnectionReceived w.next (w.create (NetClientIn.new addr))) := by
  have hold : ∀ c < w.next, (NodeApp.inConnectionReceived w.next
      (w.create (NetClientIn.new addr))).clients c = w.clients c := fun c hc =>
    World.clients_create_ne w _ (Nat.ne_of_lt hc)
  have hnew :
      (NodeApp.inConnectionReceived w.next (w.create (NetClientIn.new addr))).clients w.next =
        NetClientIn.new addr := World.clients_create_next w _
  have hdials := @dials_succ key w _ rfl hold
  rw [hnew, if_neg (fun hout => by cases hout.1), Nat.add_zero] at hdials
  exact h.same (h.tables.inConnectionReceived _) hdials rfl
    (timesTold_succ rfl fun c hc => by rw [hold c hc])

/-- **A try is paid for.** -/
theorem tryCandidate (h : Booked key n more w) (key' : Str) :
    Booked key n more (NodeApp.tryCandidate uv w key') := by
  have hround := roundMade_tryCandidate uv w key'
  have hold : ∀ c < w.next, (NodeApp.tryCandidate uv w key').clients c = w.clients c :=
    fun c hc => clients_tryCandidate uv hc key'
  have htables := h.tables.tryCandidate uv key'
  have hbalance := h.balance
  refine ⟨htables, ?_⟩
  cases hthis : attempted w key' with
  | none =>
    obtain ⟨hnext, -⟩ := hround.idle hthis
    have hdials : dials key (NodeApp.tryCandidate uv w key') = dials key w :=
      dials_congr hnext fun c hc => by rw [hold c hc]; exact ⟨rfl, rfl⟩
    have htold : timesTold key w ≤ timesTold key (NodeApp.tryCandidate uv w key') :=
      timesTold_le hnext fun c hc => by rw [hold c hc]
    have hleft := allowance_tryCandidate uv key key' w h.tables
    omega
  | some i =>
    obtain ⟨hnext, -, hnew⟩ := hround.dialled i hthis
    obtain ⟨hfind, hwill, -⟩ := attempted_eq_some.mp hthis
    have haddr : (dialled uv w.next i).kind = .peerClientOut ∧
        (dialled uv w.next i).myPeerAddr = key' := by
      rw [h.tables.key key' i hfind]
      unfold dialled
      dsimp only
      split
      · exact ⟨rfl, rfl⟩
      · exact ⟨rfl, rfl⟩
    have hdials := @dials_succ key w _ hnext hold
    rw [hnew, haddr.1, haddr.2] at hdials
    have htold : timesTold key w ≤ timesTold key (NodeApp.tryCandidate uv w key') :=
      timesTold_succ hnext fun c hc => by rw [hold c hc]
    -- a dial of this endpoint costs its candidate a try; other dials are not counted
    by_cases hk : key' = key
    · subst hk
      have hspent := allowance_tried uv hfind hwill h.tables
      rw [if_pos ⟨rfl, rfl⟩] at hdials
      omega
    · have hleft := allowance_tryCandidate uv key key' w h.tables
      rw [if_neg fun hboth => hk hboth.2] at hdials
      omega

/-! ### Its callbacks -/

theorem robust (key : Str) (n more : Nat) (c : ClientId) :
    Robust c (fun w : NodeWorld => c < w.next ∧ Booked key n more w) where
  quiet hf h := ⟨h.1, h.2.quiet c hf⟩
  connectionClosed {w} h := by
    refine ⟨?_, h.2.connectionClosed c⟩
    rw [show (BaseApp.connectionClosed c w : NodeWorld).next = _ from next_connectionClosed c w]
    exact h.1
  greets _ h := ⟨h.1, h.2.log c _⟩

theorem sendMessage {c : ClientId} (m : Message) (h : c < w.next ∧ Booked key n more w) :
    c < (sendMessage uv c m w).1.next ∧ Booked key n more (sendMessage uv c m w).1 :=
  (robust key n more c).sendMessage uv ⟨h.1, h.2.log c _⟩

/-- What was reserved may be kept. -/
theorem forgo (h : Booked key n more w) : Booked key n 0 w :=
  ⟨h.tables, (Nat.le_add_right _ _).trans h.balance⟩

/-- A candidate is added for a message that names it. -/
theorem names_of_addedBy {c : ClientId} {m : Message} {host : Str} {port : Int32}
    (h : addedBy c m w = some (host, port)) (hkey : endpointText host port = key) :
    m.names key (w.clients c).myPeerAddr = true := by
  unfold addedBy at h
  cases m with
  | handshake v y a =>
    dsimp only at h
    split at h
    · rename_i hgood
      unfold Message.names
      dsimp only
      rw [if_pos ⟨hgood.1, hgood.2.2⟩]
      cases hport : stoi (a.drop 1) with
      | error e =>
        rw [hport] at h
        cases h
      | ok port' =>
        rw [hport] at h
        dsimp only at h
        split at h
        · obtain ⟨rfl, rfl⟩ := Prod.mk.inj (Option.some.inj h)
          exact decide_eq_true hkey
        · cases h
    · cases h
  | otherPeer host' port' =>
    obtain ⟨rfl, rfl⟩ := Prod.mk.inj (Option.some.inj h)
    exact decide_eq_true hkey
  | _ => cases h

/-- A message that names the endpoint spends what is reserved for it; any other nothing. -/
theorem messageReceived {c : ClientId} {m : Message} (h : c < w.next ∧
      Booked key n (if m.names key (w.clients c).myPeerAddr then 1 else 0) w) :
    c < (messageReceived uv c m w).world.next ∧
      Booked key n 0 (messageReceived uv c m w).world := by
  refine messageReceived_adds (I := fun w' => c < w'.next ∧ Booked key n 0 w')
    (B := fun w' => c < w'.next ∧
      Booked key n (if m.names key (w.clients c).myPeerAddr then 1 else 0) w')
    (fun h => (robust key n _ c).close h) (fun m h => sendMessage m h)
    (fun a h => ⟨h.1, h.2.modify c (fun _ => ⟨rfl, rfl⟩) fun _ => List.prefix_rfl⟩)
    (fun h => ⟨h.1, h.2.forgo⟩) (fun host port hadded h => ⟨h.1, ?_⟩)
    (fun key' h => ⟨Nat.lt_of_lt_of_le h.1 (next_tryCandidate uv _ key'), h.2.tryCandidate key'⟩)
    (fun m h => sendMessage m h) h
  refine h.2.addOutPeerCandidate host port (le_refl 1) fun hkey => ?_
  rw [if_pos (names_of_addedBy hadded hkey)]
  exact le_rfl

theorem robustApp (uv : Uv) (key : Str) (n : Nat) (c : ClientId) :
    RobustApp uv c (fun w : NodeWorld => c < w.next ∧ Booked key n 0 w) where
  toRobust := robust key n 0 c
  sendOtherPeers h := gossip_preserves (I := fun w => c < w.next ∧ Booked key n 0 w)
    (fun e _ _ h => sendMessage (.otherPeer e.myHost e.myPort) h) h
  connected h _ := ⟨h.1, h.2.modify c (fun _ => ⟨rfl, rfl⟩) fun _ => List.prefix_rfl⟩
  buffer _ h := ⟨h.1, h.2.modify c (fun _ => ⟨rfl, rfl⟩) fun _ => List.prefix_rfl⟩
  message {w line m} _ h := by
    refine messageReceived ⟨h.1, ?_⟩
    have hover := h.2.handOver h.1 m
    rw [World.clients_modify_self]
    exact hover

/-! ### Its events -/

/-- Trying all candidates. -/
theorem tryOutConnections (h : Booked key n 0 w) : Booked key n 0 (tryOutConnections uv w) :=
  rounds_preserve (fun key' _ _ h => h.tryCandidate key') h

/-- A candidate the node starts with. -/
theorem bring (h : Booked key n 0 w) (host : Str) (port : Int32) {toTry : Int} (hpos : 1 ≤ toTry) :
    Booked key (n + if endpointText host port = key then toTry.toNat else 0) 0
      { w with app := w.app.addOutPeerCandidate host port toTry } := by
  have hreserved : Booked key (n + if endpointText host port = key then toTry.toNat else 0)
      (if endpointText host port = key then toTry.toNat else 0) w :=
    ⟨h.tables, (Nat.add_le_add_right h.balance _).trans_eq (Nat.add_assoc ..)⟩
  exact hreserved.addOutPeerCandidate host port hpos fun hkey => by rw [if_pos hkey]

theorem addExtraPeers : ∀ (peers : List Str) {n : Nat} {w : NodeWorld}, Booked key n 0 w →
    Booked key (n + 1000000 * peers.countP fun p => (Endpoint.ofString p).getEndpoint = key) 0
      { w with app := peers.foldl addExtraPeer w.app } := by
  intro peers
  induction peers with
  | nil => intro n w h; exact h
  | cons p peers ih =>
    intro n w h
    have hbrought := ih (h.bring (Endpoint.ofString p).myHost (Endpoint.ofString p).myPort
      (by decide : (1 : Int) ≤ 1000000))
    have hcount : n + 1000000 * ((p :: peers).countP fun p =>
          (Endpoint.ofString p).getEndpoint = key) =
        (n + if endpointText (Endpoint.ofString p).myHost (Endpoint.ofString p).myPort = key then
          (1000000 : Int).toNat else 0) +
        1000000 * peers.countP fun p => (Endpoint.ofString p).getEndpoint = key := by
      rw [List.countP_cons]
      by_cases hkey : (Endpoint.ofString p).getEndpoint = key
      · rw [if_pos (show endpointText _ _ = key from hkey), if_pos (decide_eq_true hkey)]
        omega
      · rw [if_neg (show ¬ endpointText _ _ = key from hkey), if_neg (mt of_decide_eq_true hkey)]
        omega
    rw [hcount]
    exact hbrought

theorem addStartCandidates (params : AppParams) (h : Booked key n 0 w) :
    Booked key (n + (NodeEvent.start params).tries key) 0
      { w with app := w.app.addStartCandidates params.extraPeers } := by
  have hlocal := (h.bring textLocalhost 5000 (le_refl 1)).bring textLocalhost 5001 (le_refl 1)
  have hall := addExtraPeers (params.extraPeers.filter fun p => 0 < p.length) hlocal
  have htotal : n + (NodeEvent.start params).tries key =
      n + (if endpointText textLocalhost 5000 = key then (1 : Int).toNat else 0) +
        (if endpointText textLocalhost 5001 = key then (1 : Int).toNat else 0) +
        1000000 * (params.extraPeers.filter fun p => 0 < p.length).countP fun p =>
          (Endpoint.ofString p).getEndpoint = key := by
    rw [NodeEvent.tries, show (1 : Int).toNat = 1 from rfl]
    omega
  rw [htotal]
  exact hall

/-- The node's name and the state of its process are not in the books. -/
theorem aside (name : Str) (net : NetHandler) (t : Option StdException) (h : Booked key n more w) :
    Booked key n more
      { w with net := net, terminated := t, app := { w.app with myName := name } } :=
  ⟨h.tables.of_sublist rfl (List.Sublist.refl _) le_rfl fun _ _ => rfl, h.balance⟩

/-- **One event** pays for the connections it makes. -/
theorem step {e : NodeEvent} (ha : (nodeSystem uv).allowed w e) (h : Booked key n 0 w) :
    Booked key (n + e.tries key) 0 (nodeStep uv w e) := by
  cases e with
  | start params =>
    have hstarted := h.addStartCandidates params
    rw [nodeStep_start]
    unfold started
    cases hport : firstPort uv params.listenPort params.listenPortRange with
    | none => exact hstarted
    | some port =>
      have hlistening : Booked key _ 0 (listening uv port
          { w with app := w.app.addStartCandidates params.extraPeers }) :=
        tryOutConnections (hstarted.aside (':' :: stdToString port.toInt) _ _)
      dsimp only
      split
      · exact hlistening
      · exact hlistening.aside _ _ _
  | listenStarted port => exact tryOutConnections (h.aside (':' :: stdToString port.toInt) w.net _)
  | newConnection status acceptRes =>
    show Booked key n 0 (onNewConnection uv status acceptRes w)
    unfold onNewConnection
    split
    · exact h
    · split
      · exact h
      · exact ((robust key n 0 w.next).doRead uv
          ⟨Nat.lt_succ_self w.next, h.inConnectionReceived _⟩).2
  | client c cb =>
    have hcb := (robustApp uv key n c).callback cb ⟨ha.2.1, h⟩
    show Booked key n 0 (callback uv c w cb).settle
    cases ho : callback uv c w cb with
    | returns w' =>
      rw [ho] at hcb
      exact hcb.2
    | throws e w' =>
      rw [ho] at hcb
      exact hcb.2.aside _ _ _

end Booked

/-! ## The result -/

theorem booked_init (key : Str) : Booked key 0 0 NodeWorld.init := ⟨peerTables_init, le_rfl⟩

/-- A node that is told about an endpoint. -/
def toldOnce : List NodeEvent :=
  [.start { listenPort := 5000, listenPortRange := 1 }, .newConnection 0 0,
    .client 1 (.read 20 (some "OPEER 10.0.0.1 7000\n".toList))]

/-- **Every connection a node makes is paid for**: it makes no more of them to an endpoint than it
    was started with tries for it, and was told about it. -/
theorem dials_paid {uv : Uv} (key : Str) {es : List NodeEvent}
    (hv : (nodeSystem uv).Valid NodeWorld.init es) :
    dials key ((nodeSystem uv).run NodeWorld.init es) ≤
      (es.map (NodeEvent.tries key)).sum +
        timesTold key ((nodeSystem uv).run NodeWorld.init es) := by
  have hbooked : Booked key (es.map (NodeEvent.tries key)).sum 0
      ((nodeSystem uv).run NodeWorld.init es) := by
    refine System.run_invariant_recorded (P := fun _ _ => True)
      (I := fun es w => Booked key (es.map (NodeEvent.tries key)).sum 0 w)
      (fun es e h ha _ => ?_) (booked_init key) hv
      (System.along_of_forall _ (fun _ _ => trivial) _ _)
    rw [List.map_append, List.sum_append, List.map_singleton, List.sum_singleton]
    exact h.step ha
  have hbalance := hbooked.balance
  omega

theorem dials_paid_once :
    dials "10.0.0.1:7000".toList ((nodeSystem .cooperative).run NodeWorld.init toldOnce) ≤
      (toldOnce.map (NodeEvent.tries "10.0.0.1:7000".toList)).sum +
        timesTold "10.0.0.1:7000".toList ((nodeSystem .cooperative).run NodeWorld.init toldOnce) :=
  dials_paid "10.0.0.1:7000".toList (by decide)

end TcpUv
