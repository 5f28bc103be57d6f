import TcpUv.Proof.Attempts

/-!
# The connection pass

`tryOutConnections` reads the list of peers while it appends to it. It is a simultaneous
step all the same: whether a candidate is tried depends on the state before the pass
(`SimultaneousPass`). What keeps the rounds apart is that the client a round makes answers
to the key of its own candidate and to no other, because keys are what the candidates spell
and a fresh client has no canonical address (`isPeerConnected_tryCandidate_ne`).

`RoundMade` says what one round does to the world; the pass is the induction over the keys
that are left (`rounds_made`).
-/

set_option autoImplicit false

namespace TcpUv

open Lib NodeApp

/-! ## What a pass is to do -/

/-- The candidates a pass is to try: in budget, and answered to, under either address, by no
    outgoing entry. -/
def Eligible (w : NodeWorld) (key : Str) : Prop :=
  ∃ i, w.app.myPeerCands.find? key = some i ∧
    (i.myConnTryCount = 0 ∨ i.myConnTryCount < i.myToTry) ∧
    ∀ p ∈ w.app.myPeers, p.myOutFlag = true → ∀ c, p.myClient = some c →
      (w.clients c).myPeerAddr ≠ key ∧ (w.clients c).myCanonPeerAddr ≠ key

/-- The candidate is this node, under a name of this machine. -/
def IsSelf (w : NodeWorld) (i : PeerCandidateInfo) : Prop :=
  ':' :: stdToString i.myPort.toInt = w.app.myName ∧ i.myHost ∈ loopbackHosts

instance (w : NodeWorld) (i : PeerCandidateInfo) : Decidable (IsSelf w i) :=
  inferInstanceAs (Decidable (_ ∧ _))

instance (w : NodeWorld) (key : Str) (i : PeerCandidateInfo) : Decidable (WillTry w key i) :=
  inferInstanceAs (Decidable ((_ ∨ _) ∧ _))

/-- The candidate a connection is attempted to under a key, if it is tried and not the node
    itself. -/
def attempted (w : NodeWorld) (key : Str) : Option PeerCandidateInfo :=
  (w.app.myPeerCands.find? key).filter fun i => WillTry w key i ∧ ¬ IsSelf w i

/-- The attempts of a pass over the given keys, in their order. -/
def attempts (w : NodeWorld) (keys : List Str) : List PeerCandidateInfo :=
  keys.filterMap (attempted w)

/-- A client of a candidate on which `connect()` has been called, once. -/
def dialled (uv : Uv) (c : ClientId) (i : PeerCandidateInfo) : Client :=
  let k : Client := { (((PeerClientOut.new i.myHost i.myPort).log .connectCall).setState
    .connecting).setUvStream with mySendCounter := 0 }
  if uv.tcpConnect c k ≠ 0 then k else { k with tcp := { k.tcp with connecting := true } }

theorem connectCalls_dialled (uv : Uv) (c : ClientId) (i : PeerCandidateInfo) :
    (dialled uv c i).acts.count .connectCall = 1 := by
  unfold dialled
  dsimp only
  split <;> rfl

/-- **A pass as one step**: every eligible candidate has one more try, every other one is as it
    was; one new client a candidate that is not the node itself, in key order, each told once to
    connect; and one outgoing entry for each. -/
structure SimultaneousPass (uv : Uv) (w w' : NodeWorld) : Prop where
  tried : ∀ key i, w.app.myPeerCands.find? key = some i → Eligible w key →
    ∃ i', w'.app.myPeerCands.find? key = some i' ∧ (i' = i.tried ∨ i' = i.tried.connected)
  others : ∀ key, ¬ Eligible w key →
    w'.app.myPeerCands.find? key = w.app.myPeerCands.find? key
  next : w'.next = w.next + (attempts w w.app.myPeerCands.keys).length
  connects : ∀ j i, (attempts w w.app.myPeerCands.keys)[j]? = some i →
    w'.clients (w.next + j) = dialled uv (w.next + j) i ∧
      (w'.clients (w.next + j)).acts.count .connectCall = 1
  clients : ∀ c < w.next, w'.clients c = w.clients c
  peers : w'.app.myPeers = w.app.myPeers ++
    (List.range' w.next (attempts w w.app.myPeerCands.keys).length).map fun c => ⟨some c, true⟩

/-! ## One round -/

section

variable {uv : Uv} {w : NodeWorld} {key : Str}

theorem eligible_iff : Eligible w key ↔
    ∃ i, w.app.myPeerCands.find? key = some i ∧ WillTry w key i := by
  refine exists_congr fun i => and_congr_right fun _ => and_congr_right fun _ => ?_
  rw [Bool.eq_false_iff, Ne, isPeerConnected_iff, not_exists]
  constructor
  · rintro h p ⟨hp, hout, hm⟩
    unfold PeerInfo.matches at hm
    cases hc : p.myClient with
    | none => rw [hc] at hm; cases hm
    | some c =>
      rw [hc] at hm
      obtain ⟨haddr, hcanon⟩ := h p hp hout c hc
      simp [haddr, hcanon] at hm
  · intro h p hp hout c hc
    have hno : ¬ PeerInfo.matches w key p = true := fun hm => h p ⟨hp, hout, hm⟩
    unfold PeerInfo.matches at hno
    rw [hc] at hno
    simpa using hno

theorem attempted_eq_some {i : PeerCandidateInfo} : attempted w key = some i ↔
    w.app.myPeerCands.find? key = some i ∧ WillTry w key i ∧ ¬ IsSelf w i := by
  unfold attempted
  rw [Option.filter_eq_some_iff]
  simp

/-- What one round makes of the world. -/
structure RoundMade (uv : Uv) (w : NodeWorld) (key : Str) (w' : NodeWorld) : Prop where
  tried : ∀ i, w.app.myPeerCands.find? key = some i → WillTry w key i →
    ∃ i', w'.app.myPeerCands.find? key = some i' ∧ (i' = i.tried ∨ i' = i.tried.connected)
  skipped : (∀ i, w.app.myPeerCands.find? key = some i → ¬ WillTry w key i) → w' = w
  idle : attempted w key = none → w'.next = w.next ∧ w'.app.myPeers = w.app.myPeers
  dialled : ∀ i, attempted w key = some i → w'.next = w.next + 1 ∧
    w'.app.myPeers = w.app.myPeers ++ [⟨some w.next, true⟩] ∧
    w'.clients w.next = dialled uv w.next i

theorem clients_connect_new (uv : Uv) (w : NodeWorld) (i : PeerCandidateInfo) :
    (connect uv w.next (appendOut i.myHost i.myPort w)).1.clients w.next =
      dialled uv w.next i := by
  have hnew : (appendOut i.myHost i.myPort w).clients w.next =
      PeerClientOut.new i.myHost i.myPort := World.clients_create_next w _
  have hguard : ¬ ((appendOut i.myHost i.myPort w).clients w.next).Refuses :=
    Client.not_refuses_of_state .notConnected (by rw [hnew]; rfl) (by decide)
  rw [connect_dial uv hguard, World.clients_modify_self, hnew]
  rfl

theorem tryOutConnection_self {i : PeerCandidateInfo} (hself : IsSelf w i) :
    tryOutConnection uv i.myHost i.myPort w = (w, 0) := if_pos hself

theorem tryOutConnection_other {i : PeerCandidateInfo} (hother : ¬ IsSelf w i) :
    tryOutConnection uv i.myHost i.myPort w =
      connect uv w.next (appendOut i.myHost i.myPort w) := if_neg hother

/-- A candidate that is not to be tried is left alone, and so is everything else. -/
theorem tryCandidate_left
    (h : ∀ i, w.app.myPeerCands.find? key = some i → ¬ WillTry w key i) :
    tryCandidate uv w key = w := by
  unfold tryCandidate
  cases hfind : w.app.myPeerCands.find? key with
  | none => rfl
  | some i =>
    dsimp only
    split
    · rename_i hbudget
      refine if_pos (not_not.mp fun hconn => h i hfind ⟨hbudget, ?_⟩)
      exact Bool.eq_false_iff.mpr hconn
    · rfl

/-- A candidate that is to be tried: the try is counted, then the attempt is made, then it
    may be counted as connected. -/
theorem tryCandidate_tried (uv : Uv) {i : PeerCandidateInfo}
    (hfind : w.app.myPeerCands.find? key = some i) (hwill : WillTry w key i) :
    ∃ r, r = tryOutConnection uv i.myHost i.myPort (modifyCand key PeerCandidateInfo.tried w) ∧
      tryCandidate uv w key =
        if r.2 = 0 then modifyCand key PeerCandidateInfo.connected r.1 else r.1 := by
  refine ⟨_, rfl, ?_⟩
  have hbudget : i.myConnTryCount = 0 ∨ i.myConnTryCount < i.myToTry := hwill.1
  have hfree : ¬ isPeerConnected w key true = true := Bool.eq_false_iff.mp hwill.2
  unfold tryCandidate
  rw [hfind]
  dsimp only
  rw [if_pos hbudget, if_neg hfree]
  rfl

theorem find?_modifyCand_self (f : PeerCandidateInfo → PeerCandidateInfo) (w : NodeWorld) :
    (modifyCand key f w).app.myPeerCands.find? key = (w.app.myPeerCands.find? key).map f := by
  show (w.app.myPeerCands.modify key f).find? key = _
  rw [SortedMap.find?_modify, if_pos rfl]

/-- **One round**, case by case of the loop's body. -/
theorem roundMade_tryCandidate (uv : Uv) (w : NodeWorld) (key : Str) :
    RoundMade uv w key (tryCandidate uv w key) := by
  by_cases hleft : ∀ i, w.app.myPeerCands.find? key = some i → ¬ WillTry w key i
  · rw [tryCandidate_left hleft]
    exact ⟨fun i hi hw => absurd hw (hleft i hi), fun _ => rfl, fun _ => ⟨rfl, rfl⟩,
      fun i hi => absurd (attempted_eq_some.mp hi).2.1 (hleft i (attempted_eq_some.mp hi).1)⟩
  · obtain ⟨i, hfind, hwill⟩ : ∃ i, w.app.myPeerCands.find? key = some i ∧ WillTry w key i := by
      by_contra hno
      exact hleft fun i hi hw => hno ⟨i, hi, hw⟩
    have hthis : ∀ j, w.app.myPeerCands.find? key = some j → i = j := fun j hj =>
      Option.some.inj (hfind.symm.trans hj)
    obtain ⟨r, hr, hround⟩ := tryCandidate_tried uv hfind hwill
    -- the attempt does not touch the candidates
    have hcands : r.1.app.myPeerCands.find? key = some i.tried := by
      have htried : (modifyCand key PeerCandidateInfo.tried w).app.myPeerCands.find? key =
          some i.tried := by
        rw [find?_modifyCand_self, hfind]
        rfl
      rw [hr]
      by_cases hself : IsSelf (modifyCand key PeerCandidateInfo.tried w) i
      · rw [tryOutConnection_self hself]
        exact htried
      · rw [tryOutConnection_other hself, app_connect]
        exact htried
    -- … and the count after it touches nothing else
    have hafter : (tryCandidate uv w key).next = r.1.next ∧
        (tryCandidate uv w key).app.myPeers = r.1.app.myPeers ∧
        (tryCandidate uv w key).clients = r.1.clients := by
      rw [hround]
      split
      · exact ⟨rfl, rfl, rfl⟩
      · exact ⟨rfl, rfl, rfl⟩
    obtain ⟨hnext, hpeers, hclients⟩ := hafter
    refine ⟨fun j hj _ => ?_, fun hskip => absurd hwill (hskip i hfind), fun hidle => ?_,
      fun j hj => ?_⟩
    · obtain rfl := hthis j hj
      rw [hround]
      split
      · exact ⟨_, by rw [find?_modifyCand_self, hcands]; rfl, Or.inr rfl⟩
      · exact ⟨_, hcands, Or.inl rfl⟩
    · -- tried, but no attempt: it is the node itself
      have hself : IsSelf w i := by
        by_contra hother
        rw [attempted_eq_some.mpr ⟨hfind, hwill, hother⟩] at hidle
        cases hidle
      rw [tryOutConnection_self (w := modifyCand key PeerCandidateInfo.tried w) hself] at hr
      rw [hnext, hpeers, hr]
      exact ⟨rfl, rfl⟩
    · obtain ⟨hj, -, hother⟩ := attempted_eq_some.mp hj
      obtain rfl := hthis j hj
      rw [tryOutConnection_other (w := modifyCand key PeerCandidateInfo.tried w) hother] at hr
      rw [hnext, hpeers, hclients, hr, next_connect, app_connect]
      exact ⟨rfl, rfl, clients_connect_new uv (modifyCand key PeerCandidateInfo.tried w) i⟩

/-! ## The pass -/

/-- A round leaves the decision about the other candidates as it was. -/
theorem willTry_tryCandidate_ne (uv : Uv) (h : PeerTables w) {key' : Str} (hne : key ≠ key')
    {i : PeerCandidateInfo} (hfind : w.app.myPeerCands.find? key = some i) :
    WillTry (tryCandidate uv w key') key i ↔ WillTry w key i := by
  have hkey : key ≠ [] := by
    rw [h.key key i hfind]
    simp [endpointText]
  unfold WillTry
  rw [isPeerConnected_tryCandidate_ne uv h hne hkey]

theorem attempted_tryCandidate_ne (uv : Uv) (h : PeerTables w) {key' : Str} (hne : key ≠ key') :
    attempted (tryCandidate uv w key') key = attempted w key := by
  have hname := name_tryCandidate uv w key'
  have hself : ∀ i, IsSelf (tryCandidate uv w key') i ↔ IsSelf w i := fun i => by
    unfold IsSelf
    rw [hname]
  refine Option.ext fun i => ?_
  rw [attempted_eq_some, attempted_eq_some, find?_tryCandidate_ne uv hne, hself]
  exact and_congr_right fun hfind => and_congr_left fun _ => willTry_tryCandidate_ne uv h hne hfind

theorem attempts_tryCandidate (uv : Uv) (h : PeerTables w) {keys : List Str} (hnot : key ∉ keys) :
    attempts (tryCandidate uv w key) keys = attempts w keys := by
  unfold attempts
  refine List.filterMap_congr fun key' hkey' => ?_
  exact attempted_tryCandidate_ne uv h fun he => hnot (he ▸ hkey')

/-- What the rounds over a list of keys make of the world, in terms of the state before them. -/
structure RoundsMade (uv : Uv) (w : NodeWorld) (keys : List Str) (w' : NodeWorld) : Prop where
  tried : ∀ key ∈ keys, ∀ i, w.app.myPeerCands.find? key = some i → WillTry w key i →
    ∃ i', w'.app.myPeerCands.find? key = some i' ∧ (i' = i.tried ∨ i' = i.tried.connected)
  others : ∀ key, (key ∈ keys → ∀ i, w.app.myPeerCands.find? key = some i → ¬ WillTry w key i) →
    w'.app.myPeerCands.find? key = w.app.myPeerCands.find? key
  next : w'.next = w.next + (attempts w keys).length
  connects : ∀ j i, (attempts w keys)[j]? = some i →
    w'.clients (w.next + j) = dialled uv (w.next + j) i
  clients : ∀ c < w.next, w'.clients c = w.clients c
  peers : w'.app.myPeers = w.app.myPeers ++
    (List.range' w.next (attempts w keys).length).map fun c => ⟨some c, true⟩

/-- One more round, before the others. -/
theorem RoundsMade.cons (h : PeerTables w) {keys : List Str} (hnot : key ∉ keys) {w' : NodeWorld}
    (hrest : RoundsMade uv (tryCandidate uv w key) keys w') :
    RoundsMade uv w (key :: keys) w' := by
  have hround := roundMade_tryCandidate uv w key
  have hold : ∀ c < w.next, (tryCandidate uv w key).clients c = w.clients c := fun c hc =>
    clients_tryCandidate uv hc key
  have hle := next_tryCandidate uv w key
  have hother : ∀ {key'}, key' ≠ key → (tryCandidate uv w key).app.myPeerCands.find? key' =
      w.app.myPeerCands.find? key' := fun hne => find?_tryCandidate_ne uv hne
  have hattempts := attempts_tryCandidate uv h hnot
  obtain ⟨htried, hothers, hnext, hconnects, hclients, hpeers⟩ := hrest
  rw [hattempts] at hnext hconnects hpeers
  -- the candidate of this round is left alone by the rest
  have hkey : w'.app.myPeerCands.find? key =
      (tryCandidate uv w key).app.myPeerCands.find? key :=
    hothers key fun hmem => absurd hmem hnot
  have hcons : attempts w (key :: keys) = (attempted w key).toList ++ attempts w keys := by
    unfold attempts
    rw [List.filterMap_cons]
    cases attempted w key <;> rfl
  refine ⟨fun key' hmem i hfind hwill => ?_, fun key' hskip => ?_, ?_, fun j i hj => ?_,
    fun c hc => ?_, ?_⟩
  · by_cases hne : key' = key
    · subst hne
      rw [hkey]
      exact hround.tried i hfind hwill
    · refine htried key' ((List.mem_cons.mp hmem).resolve_left hne) i ?_ ?_
      · rw [hother hne]
        exact hfind
      · exact (willTry_tryCandidate_ne uv h hne hfind).mpr hwill
  · by_cases hne : key' = key
    · subst hne
      rw [hkey, hround.skipped (hskip (by simp))]
    · rw [hothers key' fun hmem i hi hwill => ?_, hother hne]
      rw [hother hne] at hi
      exact hskip (List.mem_cons_of_mem key hmem) i hi
        ((willTry_tryCandidate_ne uv h hne hi).mp hwill)
  · rw [hnext, hcons]
    cases hthis : attempted w key with
    | none => rw [(hround.idle hthis).1]; rfl
    | some i =>
      rw [(hround.dialled i hthis).1, Option.toList_some, List.length_append,
        List.length_singleton, Nat.add_assoc]
  · rw [hcons] at hj
    cases hthis : attempted w key with
    | none =>
      rw [hthis, Option.toList_none, List.nil_append] at hj
      have hnext' := (hround.idle hthis).1
      rw [← hnext']
      exact hconnects j i hj
    | some i₀ =>
      obtain ⟨hnext', -, hnew⟩ := hround.dialled i₀ hthis
      rw [hthis, Option.toList_some, List.singleton_append] at hj
      cases j with
      | zero =>
        obtain rfl : i₀ = i := Option.some.inj hj
        rw [Nat.add_zero, hclients w.next (hnext' ▸ Nat.lt_succ_self w.next)]
        exact hnew
      | succ j =>
        have hc := hconnects j i hj
        rw [hnext', Nat.add_assoc, Nat.add_comm 1 j] at hc
        exact hc
  · rw [hclients c (Nat.lt_of_lt_of_le hc hle), hold c hc]
  · rw [hpeers, hcons]
    cases hthis : attempted w key with
    | none =>
      obtain ⟨hnext', hpeers'⟩ := hround.idle hthis
      rw [hnext', hpeers']
      rfl
    | some i =>
      obtain ⟨hnext', hpeers', -⟩ := hround.dialled i hthis
      rw [hnext', hpeers', Option.toList_some, List.singleton_append, List.length_cons,
        List.range'_succ, List.map_cons, List.append_assoc]
      rfl

/-- The rounds one after the other, each seen from before the first. -/
theorem rounds_made (uv : Uv) : ∀ {keys : List Str} {w : NodeWorld}, PeerTables w → keys.Nodup →
    RoundsMade uv w keys (keys.foldl (tryCandidate uv) w) := by
  intro keys
  induction keys with
  | nil =>
    intro w _ _
    exact ⟨fun _ hmem => (nomatch hmem), fun _ _ => rfl, rfl, fun _ _ hj => (nomatch hj),
      fun _ _ => rfl, (List.append_nil _).symm⟩
  | cons key keys ih =>
    intro w h hnodup
    obtain ⟨hnot, hnodup⟩ := List.nodup_cons.mp hnodup
    exact (ih (h.tryCandidate uv key) hnodup).cons h hnot

/-- **The pass is a simultaneous step**: what it does to each candidate is decided by the state
    before it. -/
theorem pass_simultaneous (uv : Uv) {w : NodeWorld} (h : NodeReachable uv w) :
    SimultaneousPass uv w (tryOutConnections uv w) := by
  obtain ⟨htried, hothers, hnext, hconnects, hclients, hpeers⟩ :=
    rounds_made uv (peerTables_reachable h) w.app.myPeerCands.keys_nodup
  refine ⟨fun key i hfind helig => ?_, fun key hnot => ?_, hnext, fun j i hj => ?_, hclients,
    hpeers⟩
  · obtain ⟨j, hj, hwill⟩ := eligible_iff.mp helig
    obtain rfl : i = j := Option.some.inj (hfind.symm.trans hj)
    exact htried key ((SortedMap.mem_keys_iff _ _).mpr ⟨i, hfind⟩) i hfind hwill
  · exact hothers key fun _ i hi hwill => hnot (eligible_iff.mpr ⟨i, hi, hwill⟩)
  · have hnew := hconnects j i hj
    exact ⟨hnew, hnew ▸ connectCalls_dialled uv _ i⟩

end

/-- A node with a `-peer` it reached, and whose connection it lost. -/
def afterLost : List NodeEvent :=
  [.start { extraPeers := ["10.0.0.1:7000".toList], listenPort := 5000, listenPortRange := 5 },
    .client 0 (.connected 0), .client 0 (.wrote 0), .client 0 (.read (-4095) none),
    .client 0 (.wrote 0), .client 0 (.wrote 0), .client 0 (.wrote 0), .client 0 .closed]

/-- A `-peer` whose connection has ended is dialled again; the two local candidates have had
    their try. -/
theorem pass_simultaneous_again :
    (attempts ((nodeSystem Uv.cooperative).run NodeWorld.init afterLost)
      ["10.0.0.1:7000".toList, "localhost:5000".toList, "localhost:5001".toList]).map
        (fun i => (i.myHost, i.myPort)) = [("10.0.0.1".toList, 7000)] ∧
    SimultaneousPass Uv.cooperative ((nodeSystem Uv.cooperative).run NodeWorld.init afterLost)
      (tryOutConnections Uv.cooperative
        ((nodeSystem Uv.cooperative).run NodeWorld.init afterLost)) := by
  have hv : (nodeSystem Uv.cooperative).Valid NodeWorld.init afterLost := by decide
  exact ⟨by decide, pass_simultaneous Uv.cooperative ⟨_, hv, rfl⟩⟩

end TcpUv
