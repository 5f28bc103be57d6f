import TcpUv.Proof.NodeRules

/-!
# The peer tables

The representation invariant of `myPeerCands` and `myPeers` (`PeerTables`), and that no
event breaks it. Both tables change in one place that is not obvious, the body of the
connection pass: the candidate's try count moves first, then the entry is appended, then
the attempt is made, then — if it was accepted — the connected count follows. What keeps
the outgoing addresses apart is the key invariant: an entry's address *is* the key the
pass has just found not to be connected.
-/

set_option autoImplicit false

namespace TcpUv

open Lib NodeApp

/-- A candidate's counters in order. -/
def PeerCandidateInfo.Counted (i : PeerCandidateInfo) : Prop :=
  0 ≤ i.myConnectedCount ∧ i.myConnectedCount ≤ i.myConnTryCount ∧
    i.myConnTryCount ≤ max 1 i.myToTry

/-- The address of the client of an entry. -/
def PeerInfo.peerAddr (w : NodeWorld) (p : PeerInfo) : Option Str :=
  p.myClient.map fun c => (w.clients c).myPeerAddr

/-- The outgoing entries of the list of peers. -/
def outPeers (w : NodeWorld) : List PeerInfo := w.app.myPeers.filter fun p => p.myOutFlag

/-- The representation invariant of a node's two tables. -/
structure PeerTables (w : NodeWorld) : Prop where
  /-- every candidate is stored under the key its own fields spell -/
  key : ∀ k i, w.app.myPeerCands.find? k = some i → k = endpointText i.myHost i.myPort
  counted : ∀ k i, w.app.myPeerCands.find? k = some i → i.Counted
  /-- no entry has a null client, and its client exists -/
  client : ∀ p ∈ w.app.myPeers, ∃ c, p.myClient = some c ∧ c < w.next
  /-- outgoing peers have different addresses -/
  distinct : ((outPeers w).map (PeerInfo.peerAddr w)).Nodup
  /-- and each address is a candidate that has been tried -/
  tried : ∀ p ∈ outPeers w, ∃ a i, PeerInfo.peerAddr w p = some a ∧
    w.app.myPeerCands.find? a = some i ∧ 1 ≤ i.myConnTryCount

theorem peerAddr_congr {w w' : NodeWorld} {p : PeerInfo}
    (h : ∀ c, p.myClient = some c → (w'.clients c).myPeerAddr = (w.clients c).myPeerAddr) :
    PeerInfo.peerAddr w' p = PeerInfo.peerAddr w p := by
  unfold PeerInfo.peerAddr
  cases hp : p.myClient with
  | none => rfl
  | some c => rw [Option.map_some, Option.map_some, h c hp]

namespace PeerTables

variable {w w' : NodeWorld}

/-- Dropping entries, and moving anything of a client but its address. -/
theorem of_sublist (h : PeerTables w) (hcands : w'.app.myPeerCands = w.app.myPeerCands)
    (hpeers : w'.app.myPeers.Sublist w.app.myPeers) (hnext : w.next ≤ w'.next)
    (haddr : ∀ c < w.next, (w'.clients c).myPeerAddr = (w.clients c).myPeerAddr) :
    PeerTables w' := by
  have hsub : (outPeers w').Sublist (outPeers w) := hpeers.filter _
  have hsame : ∀ p ∈ outPeers w', PeerInfo.peerAddr w' p = PeerInfo.peerAddr w p := by
    intro p hp
    have hmem : p ∈ w.app.myPeers := List.mem_of_mem_filter (hsub.subset hp)
    obtain ⟨c, hc, hlt⟩ := h.client p hmem
    refine peerAddr_congr fun d hd => ?_
    rw [hc, Option.some.injEq] at hd
    exact hd ▸ haddr c hlt
  refine ⟨?_, ?_, ?_, ?_, ?_⟩
  · rw [hcands]
    exact h.key
  · rw [hcands]
    exact h.counted
  · intro p hp
    obtain ⟨c, hc, hlt⟩ := h.client p (hpeers.subset hp)
    exact ⟨c, hc, Nat.lt_of_lt_of_le hlt hnext⟩
  · rw [List.map_congr_left hsame]
    exact h.distinct.sublist (hsub.map _)
  · intro p hp
    rw [hsame p hp, hcands]
    exact h.tried p (hsub.subset hp)

/-- A write to clients that leaves their addresses alone. -/
theorem modify (h : PeerTables w) (c : ClientId) {f : Client → Client}
    (hf : ∀ k, (f k).myPeerAddr = k.myPeerAddr) : PeerTables (w.modify c f) := by
  refine h.of_sublist rfl (List.Sublist.refl _) le_rfl fun d _ => ?_
  rw [World.clients_modify]
  split
  · exact hf _
  · rfl

/-- A write to one candidate that keeps its endpoint, its counters in order, and its
    tries. -/
theorem modifyCand (h : PeerTables w) (key : Str) {f : PeerCandidateInfo → PeerCandidateInfo}
    (hep : ∀ i, (f i).myHost = i.myHost ∧ (f i).myPort = i.myPort)
    (hcount : ∀ i, w.app.myPeerCands.find? key = some i → (f i).Counted)
    (htry : ∀ i, i.myConnTryCount ≤ (f i).myConnTryCount) :
    PeerTables (NodeApp.modifyCand key f w) := by
  -- every entry of the new table is an old one, or the old one under `key` written to
  have hold : ∀ k i, (NodeApp.modifyCand key f w).app.myPeerCands.find? k = some i →
      w.app.myPeerCands.find? k = some i ∨
        (k = key ∧ ∃ i₀, w.app.myPeerCands.find? k = some i₀ ∧ i = f i₀) := by
    intro k i hk
    change (w.app.myPeerCands.modify key f).find? k = some i at hk
    rw [SortedMap.find?_modify] at hk
    split at hk
    · rename_i hkey
      obtain ⟨i₀, hi₀, hfi⟩ := Option.map_eq_some_iff.mp hk
      exact Or.inr ⟨hkey, i₀, hi₀, hfi.symm⟩
    · exact Or.inl hk
  refine ⟨?_, ?_, h.client, h.distinct, ?_⟩
  · intro k i hk
    rcases hold k i hk with hk | ⟨_, i₀, hk₀, rfl⟩
    · exact h.key k i hk
    · rw [(hep i₀).1, (hep i₀).2]
      exact h.key k i₀ hk₀
  · intro k i hk
    rcases hold k i hk with hk | ⟨rfl, i₀, hk₀, rfl⟩
    · exact h.counted k i hk
    · exact hcount i₀ hk₀
  · intro p hp
    obtain ⟨a, i, ha, hi, hpos⟩ := h.tried p hp
    change ∃ a j, PeerInfo.peerAddr w p = some a ∧
      (w.app.myPeerCands.modify key f).find? a = some j ∧ 1 ≤ j.myConnTryCount
    by_cases hkey : a = key
    · refine ⟨a, f i, ha, ?_, Int.le_trans hpos (htry i)⟩
      rw [SortedMap.find?_modify, if_pos hkey, hi]
      rfl
    · refine ⟨a, i, ha, ?_, hpos⟩
      rw [SortedMap.find?_modify, if_neg hkey, hi]

theorem addOutPeerCandidate_present {a : NodeApp} {host : Str} {port : Int32} {toTry : Int}
    {i : PeerCandidateInfo} (hfind : a.myPeerCands.find? (endpointText host port) = some i) :
    a.addOutPeerCandidate host port toTry = { a with
      myPeerCands := a.myPeerCands.modify (endpointText host port) fun pc =>
        { pc with myToTry := toTry + pc.myConnTryCount } } := by
  unfold NodeApp.addOutPeerCandidate
  dsimp only
  rw [hfind]

theorem addOutPeerCandidate_absent {a : NodeApp} {host : Str} {port : Int32} {toTry : Int}
    (hfind : a.myPeerCands.find? (endpointText host port) = none) :
    a.addOutPeerCandidate host port toTry = { a with
      myPeerCands := a.myPeerCands.insert (endpointText host port)
        { myHost := host, myPort := port, myToTry := toTry } } := by
  unfold NodeApp.addOutPeerCandidate
  dsimp only
  rw [hfind]

/-- `addOutPeerCandidate` with a budget that is not negative. -/
theorem addOutPeerCandidate (h : PeerTables w) (host : Str) (port : Int32) (toTry : Int)
    (hpos : 0 ≤ toTry) :
    PeerTables { w with app := w.app.addOutPeerCandidate host port toTry } := by
  cases hfind : w.app.myPeerCands.find? (endpointText host port) with
  | some i₀ =>
    rw [addOutPeerCandidate_present hfind]
    refine h.modifyCand (endpointText host port)
      (f := fun pc => { pc with myToTry := toTry + pc.myConnTryCount })
      (fun _ => ⟨rfl, rfl⟩) (fun i hi => ?_) fun _ => Int.le_refl _
    obtain ⟨h0, h1, _⟩ := h.counted _ i hi
    refine ⟨h0, h1, ?_⟩
    show i.myConnTryCount ≤ max 1 (toTry + i.myConnTryCount)
    omega
  | none =>
    rw [addOutPeerCandidate_absent hfind]
    have hnew : ∀ k i, (w.app.myPeerCands.insert (endpointText host port)
        { myHost := host, myPort := port, myToTry := toTry }).find? k = some i →
        (k = endpointText host port ∧
          i = { myHost := host, myPort := port, myToTry := toTry }) ∨
        w.app.myPeerCands.find? k = some i := by
      intro k i hk
      rw [SortedMap.find?_insert] at hk
      split at hk
      · rename_i hkey
        exact Or.inl ⟨hkey, (Option.some.inj hk).symm⟩
      · exact Or.inr hk
    refine ⟨?_, ?_, h.client, h.distinct, ?_⟩
    · intro k i hk
      rcases hnew k i hk with ⟨rfl, rfl⟩ | hk
      · rfl
      · exact h.key k i hk
    · intro k i hk
      rcases hnew k i hk with ⟨rfl, rfl⟩ | hk
      · exact ⟨Int.le_refl 0, Int.le_refl 0, by dsimp only; omega⟩
      · exact h.counted k i hk
    · intro p hp
      obtain ⟨a, i, ha, hi, htry⟩ := h.tried p hp
      refine ⟨a, i, ha, ?_, htry⟩
      have hne : a ≠ endpointText host port := by
        rintro rfl
        rw [hfind] at hi
        cases hi
      dsimp only
      rw [SortedMap.find?_insert, if_neg hne]
      exact hi

/-- Appending an incoming connection. -/
theorem inConnectionReceived (h : PeerTables w) (k : Client) :
    PeerTables (NodeApp.inConnectionReceived w.next (w.create k)) := by
  have haddr : ∀ c < w.next, ((w.create k).clients c).myPeerAddr = (w.clients c).myPeerAddr :=
    fun c hc => by rw [World.clients_create_ne w k (Nat.ne_of_lt hc)]
  have hcreate : PeerTables (w.create k) :=
    h.of_sublist rfl (List.Sublist.refl _) (Nat.le_succ _) haddr
  have hout : outPeers (NodeApp.inConnectionReceived w.next (w.create k)) =
      outPeers (w.create k) := by
    simp [outPeers, NodeApp.inConnectionReceived]
  refine ⟨hcreate.key, hcreate.counted, ?_, ?_, ?_⟩
  · intro p hp
    rcases List.mem_append.mp hp with hp | hp
    · exact hcreate.client p hp
    · rw [List.mem_singleton.mp hp]
      exact ⟨w.next, rfl, Nat.lt_succ_self _⟩
  · rw [hout]
    exact hcreate.distinct
  · rw [hout]
    exact hcreate.tried

/-- What `isPeerConnected` saw: no outgoing entry has this address. -/
theorem not_mem_of_not_connected {key : Str} (h : isPeerConnected w key true = false) :
    some key ∉ (outPeers w).map (PeerInfo.peerAddr w) := by
  intro hm
  obtain ⟨p, hp, haddr⟩ := List.mem_map.mp hm
  obtain ⟨hmem, hout⟩ := List.mem_filter.mp hp
  obtain ⟨c, hc, hk⟩ := Option.map_eq_some_iff.mp haddr
  have hno := List.any_eq_false.mp h p hmem
  simp [PeerInfo.matches, hout, hc, hk] at hno

/-- Appending an outgoing connection to a candidate that is tried and not connected. -/
theorem appendOut (h : PeerTables w) (host : Str) (port : Int32) {i : PeerCandidateInfo}
    (hfind : w.app.myPeerCands.find? (endpointText host port) = some i)
    (htried : 1 ≤ i.myConnTryCount)
    (hfresh : isPeerConnected w (endpointText host port) true = false) :
    PeerTables (NodeApp.appendOut host port w) := by
  have haddr : ∀ c < w.next,
      ((w.create (PeerClientOut.new host port)).clients c).myPeerAddr =
        (w.clients c).myPeerAddr :=
    fun c hc => by rw [World.clients_create_ne w _ (Nat.ne_of_lt hc)]
  have hcreate : PeerTables (w.create (PeerClientOut.new host port)) :=
    h.of_sublist rfl (List.Sublist.refl _) (Nat.le_succ _) haddr
  have hnew : PeerInfo.peerAddr (w.create (PeerClientOut.new host port)) ⟨some w.next, true⟩ =
      some (endpointText host port) := by
    simp only [PeerInfo.peerAddr, Option.map_some, World.clients_create_next]
    rfl
  have hold : some (endpointText host port) ∉
      (outPeers w).map (PeerInfo.peerAddr (w.create (PeerClientOut.new host port))) := by
    have hsame : ∀ p ∈ outPeers w,
        PeerInfo.peerAddr (w.create (PeerClientOut.new host port)) p = PeerInfo.peerAddr w p := by
      intro p hp
      obtain ⟨c, hc, hlt⟩ := h.client p (List.mem_of_mem_filter hp)
      refine peerAddr_congr fun d hd => ?_
      rw [hc, Option.some.injEq] at hd
      exact hd ▸ haddr c hlt
    rw [List.map_congr_left hsame]
    exact not_mem_of_not_connected hfresh
  have hout : (w.app.myPeers ++ [(⟨some w.next, true⟩ : PeerInfo)]).filter (fun p => p.myOutFlag) =
      outPeers w ++ [⟨some w.next, true⟩] := by
    simp [outPeers]
  refine ⟨h.key, h.counted, ?_, ?_, ?_⟩
  · intro p hp
    rcases List.mem_append.mp hp with hp | hp
    · exact hcreate.client p hp
    · rw [List.mem_singleton.mp hp]
      exact ⟨w.next, rfl, Nat.lt_succ_self _⟩
  · show (((w.app.myPeers ++ [(⟨some w.next, true⟩ : PeerInfo)]).filter fun p =>
      p.myOutFlag).map (PeerInfo.peerAddr (w.create (PeerClientOut.new host port)))).Nodup
    rw [hout, List.map_append, List.map_singleton, hnew]
    refine List.nodup_append.mpr ⟨hcreate.distinct, by simp, ?_⟩
    intro a ha b hb
    rw [List.mem_singleton.mp hb]
    rintro rfl
    exact hold ha
  · intro p hp
    change p ∈ (w.app.myPeers ++ [(⟨some w.next, true⟩ : PeerInfo)]).filter
      (fun p => p.myOutFlag) at hp
    rw [hout] at hp
    rcases List.mem_append.mp hp with hp | hp
    · exact hcreate.tried p hp
    · rw [List.mem_singleton.mp hp]
      exact ⟨_, i, hnew, hfind, htried⟩

theorem connectionClosed (c : ClientId) (h : PeerTables w) :
    PeerTables (NodeApp.connectionClosed c w) := by
  obtain ⟨hq, hnext, _, happ⟩ := connectionClosed_spec c w
  refine h.of_sublist ?_ ?_ (Nat.le_of_eq hnext.symm) fun d _ => (hq d).myPeerAddr
  · rw [happ]
  · rw [happ]
    exact List.filter_sublist

theorem robust (c : ClientId) : Robust c (fun w : NodeWorld => PeerTables w) where
  quiet hf h := h.modify c fun k => (hf k).myPeerAddr
  connectionClosed h := h.connectionClosed c
  greets _ h := h.modify c fun _ => rfl

/-- **One round of the connection pass.** -/
theorem tryCandidate (uv : Uv) (h : PeerTables w) (key : Str) :
    PeerTables (tryCandidate uv w key) := by
  -- a try is counted first …
  have htry : ∀ i, w.app.myPeerCands.find? key = some i → i.InBudget →
      PeerTables (NodeApp.modifyCand key PeerCandidateInfo.tried w) ∧
      (NodeApp.modifyCand key PeerCandidateInfo.tried w).app.myPeerCands.find? key =
        some i.tried := by
    intro i hfind hbudget
    obtain ⟨h0, h1, h2⟩ := h.counted key i hfind
    refine ⟨h.modifyCand key (fun _ => ⟨rfl, rfl⟩) (fun i' hi' => ?_) fun i => ?_, ?_⟩
    · rw [hfind, Option.some.injEq] at hi'
      subst hi'
      unfold PeerCandidateInfo.Counted PeerCandidateInfo.tried
      unfold PeerCandidateInfo.InBudget at hbudget
      dsimp only
      omega
    · show i.myConnTryCount ≤ i.myConnTryCount + 1
      omega
    · show (w.app.myPeerCands.modify key _).find? key = _
      rw [SortedMap.find?_modify, if_pos rfl, hfind]
      rfl
  -- … which leaves room for one more connection in the counts
  have hconnected : ∀ (i : PeerCandidateInfo) (w' : NodeWorld), i.Counted → PeerTables w' →
      w'.app.myPeerCands.find? key = some i.tried →
      PeerTables (NodeApp.modifyCand key PeerCandidateInfo.connected w') := by
    intro i w' ⟨h0, h1, h2⟩ hw' hi
    have hcounted := hw'.counted key _ hi
    unfold PeerCandidateInfo.Counted PeerCandidateInfo.tried at hcounted
    refine hw'.modifyCand key (fun _ => ⟨rfl, rfl⟩) (fun i' hi' => ?_) fun i => Int.le_refl _
    rw [hi, Option.some.injEq] at hi'
    subst hi'
    unfold PeerCandidateInfo.Counted PeerCandidateInfo.connected PeerCandidateInfo.tried
    dsimp only at hcounted ⊢
    omega
  have happended : ∀ i, w.app.myPeerCands.find? key = some i → i.InBudget →
      isPeerConnected w key true = false →
      PeerTables (connect uv w.next (NodeApp.appendOut i.myHost i.myPort
        (NodeApp.modifyCand key PeerCandidateInfo.tried w))).1 := by
    intro i hfind hbudget hfree
    obtain ⟨htables, hfind'⟩ := htry i hfind hbudget
    have hkey := h.key key i hfind
    obtain ⟨h0, h1, -⟩ := h.counted key i hfind
    refine (robust w.next).connect uv (htables.appendOut i.myHost i.myPort (i := i.tried)
      (by rw [← hkey]; exact hfind') ?_ (by rw [← hkey]; exact hfree))
    unfold PeerCandidateInfo.tried
    dsimp only
    omega
  have hround := round_tryCandidate uv w key
  generalize NodeApp.tryCandidate uv w key = w' at hround ⊢
  cases hround with
  | skipped => exact h
  | self i hfind hbudget =>
    obtain ⟨htables, hfind'⟩ := htry i hfind hbudget
    exact hconnected i _ (h.counted key i hfind) htables hfind'
  | attempted i hfind hbudget hfree =>
    apply hconnected i _ (h.counted key i hfind) (happended i hfind hbudget hfree)
    rw [app_connect]
    exact (htry i hfind hbudget).2
  | failed i hfind hbudget hfree => exact happended i hfind hbudget hfree

theorem addStartCandidates (h : PeerTables w) (extraPeers : List Str) :
    PeerTables { w with app := w.app.addStartCandidates extraPeers } :=
  startCandidates_preserve (I := fun a => PeerTables { w with app := a })
    (fun _ h => h.addOutPeerCandidate _ _ _ (by simp))
    (fun _ _ _ h => h.addOutPeerCandidate _ _ _ (by simp)) h

end PeerTables

/-- **No event breaks the tables.** -/
theorem nodeInvariant_peerTables (uv : Uv) :
    NodeInvariant uv (fun _ => True) (fun w => PeerTables w) where
  quiet _ hf h := h.modify _ fun k => (hf k).myPeerAddr
  connectionClosed _ h := h.connectionClosed _
  greets _ _ h := h.modify _ fun _ => rfl
  handshakeResponse _ h := h.modify _ fun _ => rfl
  pingResponse _ _ h := h.modify _ fun _ => rfl
  otherPeer _ _ _ h := h.modify _ fun _ => rfl
  canonical _ _ _ _ _ h := h.modify _ fun _ => rfl
  canonicalCandidate _ _ _ _ h := h.addOutPeerCandidate _ _ _ (by simp)
  candidate _ h := h.addOutPeerCandidate _ _ _ (by simp)
  tryCandidate _ h := h.tryCandidate uv _
  connected _ h _ := h.modify _ fun _ => rfl
  buffer _ _ h := h.modify _ fun _ => rfl
  handed _ _ h := h.modify _ fun _ => rfl
  accepted _ h := h.inConnectionReceived _
  named _ _ h := h.of_sublist rfl (List.Sublist.refl _) le_rfl fun _ _ => rfl
  net _ h := h.of_sublist rfl (List.Sublist.refl _) le_rfl fun _ _ => rfl
  terminated _ h := h.of_sublist rfl (List.Sublist.refl _) le_rfl fun _ _ => rfl
  started _ h := h.addStartCandidates _

theorem peerTables_init : PeerTables NodeWorld.init where
  key _ _ h := nomatch h
  counted _ _ h := nomatch h
  client _ h := nomatch h
  distinct := List.nodup_nil
  tried _ h := nomatch h

/-- **The tables of every reachable node satisfy their representation invariant.** -/
theorem peerTables_reachable {uv : Uv} {w : NodeWorld} (h : NodeReachable uv w) :
    PeerTables w :=
  Lib.System.reachable_invariant h peerTables_init fun _ e hw ha =>
    (nodeInvariant_peerTables uv).step ha (by cases e <;> trivial) hw

/-- A node that listens, dials its other local candidate, and accepts a connection. -/
theorem peerTables_reachable_accepted :
    PeerTables ((nodeSystem Uv.cooperative).run NodeWorld.init
      [.start { listenPort := 5000, listenPortRange := 5 }, .newConnection 0 0]) := by
  have hv : (nodeSystem Uv.cooperative).Valid NodeWorld.init
      [.start { listenPort := 5000, listenPortRange := 5 }, .newConnection 0 0] := by
    decide
  exact peerTables_reachable ⟨_, hv, rfl⟩

end TcpUv
