import TcpUv.Proof.NodeTables
import TcpUv.Proof.Ownership
import TcpUv.Proof.Spurious

/-!
# Failed outgoing attempts

`tryOutConnection` appends the entry before it calls `connect()`, and neither the code that
sees `connect()` fail nor `onConnect` with an error takes it out again. The candidate then
counts as connected and the pass skips it for good, whatever its budget: `tries_pass` says
exactly when a pass tries a candidate. `failedAttempt_never_forgotten` is what follows for a
failed attempt: the entry is there for as long as the client is, and while it is the candidate
is not tried again. (If a close takes the entry out first, the client is destroyed with its
connect under way, and there is no object left to be told of the failure.)
-/

set_option autoImplicit false

namespace TcpUv

open Lib NodeApp

/-! ## When the pass tries a candidate -/

section

variable (uv : Uv) {w : NodeWorld} {key key' : Str}

/-- A round leaves the other candidates alone. -/
theorem find?_tryCandidate_ne (hne : key ≠ key') :
    (tryCandidate uv w key').app.myPeerCands.find? key = w.app.myPeerCands.find? key := by
  have hmodify : ∀ (f : PeerCandidateInfo → PeerCandidateInfo) (w : NodeWorld),
      (modifyCand key' f w).app.myPeerCands.find? key = w.app.myPeerCands.find? key := by
    intro f w
    show (w.app.myPeerCands.modify key' f).find? key = _
    rw [SortedMap.find?_modify, if_neg hne]
  have hround := round_tryCandidate uv w key'
  generalize tryCandidate uv w key' = w' at hround ⊢
  cases hround with
  | skipped => rfl
  | self => rw [hmodify, hmodify]
  | attempted => rw [hmodify, app_connect]; exact hmodify _ w
  | failed => rw [app_connect]; exact hmodify _ w

/-- … and does not connect them. -/
theorem isPeerConnected_tryCandidate_ne (h : PeerTables w) (hne : key ≠ key') (hkey : key ≠ []) :
    isPeerConnected (tryCandidate uv w key') key true = isPeerConnected w key true := by
  have hnew : ∀ i, w.app.myPeerCands.find? key' = some i → ∀ w' : NodeWorld,
      w'.app.myPeers = w.app.myPeers ++ [⟨some w.next, true⟩] →
      (∀ c < w.next, w'.clients c = w.clients c) →
      (PeerClientOut.new i.myHost i.myPort).Quiet (w'.clients w.next) →
      isPeerConnected w' key true = isPeerConnected w key true := by
    intro i hfind w' hpeers hclients hq
    -- the new entry answers to its own key only
    have hno : PeerInfo.matches w' key ⟨some w.next, true⟩ = false := by
      have haddr : (w'.clients w.next).myPeerAddr = key' :=
        hq.myPeerAddr.trans (h.key key' i hfind).symm
      have hcanon : (w'.clients w.next).myCanonPeerAddr = [] := hq.myCanonPeerAddr
      unfold PeerInfo.matches
      dsimp only
      rw [haddr, hcanon]
      simp [hne.symm, hkey.symm]
    have hold : ∀ p ∈ w.app.myPeers, PeerInfo.matches w' key p = PeerInfo.matches w key p := by
      intro p hp
      refine PeerInfo.matches_congr (fun c hc => hclients c ?_) key
      obtain ⟨d, hd, hlt⟩ := h.client p hp
      obtain rfl : d = c := Option.some.inj (hd.symm.trans hc)
      exact hlt
    rw [Bool.eq_iff_iff, isPeerConnected_iff, isPeerConnected_iff, hpeers]
    constructor
    · rintro ⟨p, hp, hout, hm⟩
      rcases List.mem_append.mp hp with hp | hp
      · exact ⟨p, hp, hout, (hold p hp).symm.trans hm⟩
      · rw [List.mem_singleton.mp hp, hno] at hm
        cases hm
    · rintro ⟨p, hp, hout, hm⟩
      exact ⟨p, List.mem_append_left _ hp, hout, (hold p hp).trans hm⟩
  have hclients : ∀ c < w.next, (tryCandidate uv w key').clients c = w.clients c :=
    fun c hc => clients_tryCandidate uv hc key'
  have hround := round_tryCandidate uv w key'
  generalize tryCandidate uv w key' = w' at hround hclients ⊢
  have hquiet : ∀ i : PeerCandidateInfo, (PeerClientOut.new i.myHost i.myPort).Quiet ((connect uv
      w.next (appendOut i.myHost i.myPort (modifyCand key' PeerCandidateInfo.tried w))).1.clients
        w.next) := by
    intro i
    have hq := quiet_connect uv w.next
      (appendOut i.myHost i.myPort (modifyCand key' PeerCandidateInfo.tried w))
    rw [show (appendOut i.myHost i.myPort (modifyCand key' PeerCandidateInfo.tried w)).clients
      w.next = PeerClientOut.new i.myHost i.myPort from World.clients_create_next w _] at hq
    exact hq
  cases hround with
  | skipped => rfl
  | self => rfl
  | attempted i hfind =>
    refine hnew i hfind _ ?_ hclients (hquiet i)
    exact congrArg NodeApp.myPeers (app_connect uv w.next
      (appendOut i.myHost i.myPort (modifyCand key' PeerCandidateInfo.tried w)))
  | failed i hfind =>
    refine hnew i hfind _ ?_ hclients (hquiet i)
    exact congrArg NodeApp.myPeers (app_connect uv w.next
      (appendOut i.myHost i.myPort (modifyCand key' PeerCandidateInfo.tried w)))

/-- The candidate will be tried when its turn comes. -/
def WillTry (w : NodeWorld) (key : Str) (i : PeerCandidateInfo) : Prop :=
  i.InBudget ∧ isPeerConnected w key true = false

/-- The round of a candidate counts a try exactly when it tries. -/
theorem tries_round {i : PeerCandidateInfo} (hfind : w.app.myPeerCands.find? key = some i) :
    ∃ i', (tryCandidate uv w key).app.myPeerCands.find? key = some i' ∧
      (WillTry w key i → i'.myConnTryCount = i.myConnTryCount + 1) ∧
      (¬ WillTry w key i → i'.myConnTryCount = i.myConnTryCount) := by
  have hmodify : ∀ (f : PeerCandidateInfo → PeerCandidateInfo) (w : NodeWorld),
      (modifyCand key f w).app.myPeerCands.find? key =
        (w.app.myPeerCands.find? key).map f := by
    intro f w
    show (w.app.myPeerCands.modify key f).find? key = _
    rw [SortedMap.find?_modify, if_pos rfl]
  have htried : (modifyCand key PeerCandidateInfo.tried w).app.myPeerCands.find? key =
      some i.tried := by
    rw [hmodify, hfind]
    rfl
  have hround := round_tryCandidate uv w key
  generalize tryCandidate uv w key = w' at hround ⊢
  cases hround with
  | skipped hskip =>
    refine ⟨i, hfind, fun ⟨hbudget, hfree⟩ => ?_, fun _ => rfl⟩
    rw [hskip i hfind hbudget] at hfree
    cases hfree
  | self j hfind' hbudget hfree =>
    obtain rfl : i = j := Option.some.inj (hfind.symm.trans hfind')
    refine ⟨i.tried.connected, ?_, fun _ => rfl, fun hno => absurd ⟨hbudget, hfree⟩ hno⟩
    rw [hmodify, htried]
    rfl
  | attempted j hfind' hbudget hfree =>
    obtain rfl : i = j := Option.some.inj (hfind.symm.trans hfind')
    refine ⟨i.tried.connected, ?_, fun _ => rfl, fun hno => absurd ⟨hbudget, hfree⟩ hno⟩
    rw [hmodify, app_connect, show (appendOut i.myHost i.myPort (modifyCand key
      PeerCandidateInfo.tried w)).app.myPeerCands.find? key = _ from htried]
    rfl
  | failed j hfind' hbudget hfree =>
    obtain rfl : i = j := Option.some.inj (hfind.symm.trans hfind')
    refine ⟨i.tried, ?_, fun _ => rfl, fun hno => absurd ⟨hbudget, hfree⟩ hno⟩
    rw [app_connect]
    exact htried

/-- **When a pass tries a candidate**: when it is in budget and no outgoing entry answers to
    its key, whatever the candidates before it were. -/
theorem tries_pass (h : PeerTables w) {i : PeerCandidateInfo}
    (hfind : w.app.myPeerCands.find? key = some i) :
    ∃ i', (tryOutConnections uv w).app.myPeerCands.find? key = some i' ∧
      (WillTry w key i → i'.myConnTryCount = i.myConnTryCount + 1) ∧
      (¬ WillTry w key i → i'.myConnTryCount = i.myConnTryCount) := by
  have hkey : key ≠ [] := by
    rw [h.key key i hfind]
    simp [endpointText]
  -- before its turn nothing changes for it, and neither does anything after
  have hothers : ∀ (keys : List Str) {w : NodeWorld}, PeerTables w → key ∉ keys →
      PeerTables (keys.foldl (tryCandidate uv) w) ∧
        (keys.foldl (tryCandidate uv) w).app.myPeerCands.find? key =
          w.app.myPeerCands.find? key ∧
        isPeerConnected (keys.foldl (tryCandidate uv) w) key true =
          isPeerConnected w key true := by
    intro keys w h hnot
    refine rounds_preserve (I := fun w' => PeerTables w' ∧
      w'.app.myPeerCands.find? key = w.app.myPeerCands.find? key ∧
      isPeerConnected w' key true = isPeerConnected w key true) ?_ ⟨h, rfl, rfl⟩
    rintro key' hkey' w' ⟨htables, hf, hc⟩
    have hne : key ≠ key' := fun he => hnot (he ▸ hkey')
    exact ⟨htables.tryCandidate uv key', (find?_tryCandidate_ne uv hne).trans hf,
      (isPeerConnected_tryCandidate_ne uv htables hne hkey).trans hc⟩
  have hmem : key ∈ w.app.myPeerCands.keys := (SortedMap.mem_keys_iff _ _).mpr ⟨i, hfind⟩
  obtain ⟨before, after, hkeys⟩ := List.append_of_mem hmem
  have hnodup := w.app.myPeerCands.keys_nodup
  rw [hkeys] at hnodup
  obtain ⟨-, hafter, hdisjoint⟩ := List.nodup_append.mp hnodup
  unfold tryOutConnections
  rw [hkeys, List.foldl_append, List.foldl_cons]
  obtain ⟨hbefore, hf, hc⟩ := hothers before h fun hm => hdisjoint key hm key (by simp) rfl
  obtain ⟨i', hi', htry, hskip⟩ := tries_round uv (w := before.foldl (tryCandidate uv) w)
    (hf.trans hfind)
  unfold WillTry at htry hskip ⊢
  rw [hc] at htry hskip
  refine ⟨i', ?_, htry, hskip⟩
  rw [(hothers after (hbefore.tryCandidate uv key) (List.nodup_cons.mp hafter).1).2.1]
  exact hi'

end

/-! ## What is asked of a failed attempt -/

/-- The attempt `c` is forgotten — no entry holds its client — and the next pass tries its
    candidate again while the budget lasts. -/
def Forgotten (uv : Uv) (c : ClientId) (w : NodeWorld) : Prop :=
  (∀ p ∈ w.app.myPeers, p.myClient ≠ some c) ∧
    ∀ i, w.app.myPeerCands.find? (w.clients c).myPeerAddr = some i →
      i.myConnTryCount < i.myToTry →
      ∃ i', (tryOutConnections uv w).app.myPeerCands.find? (w.clients c).myPeerAddr = some i' ∧
        i'.myConnTryCount = i.myConnTryCount + 1

/-- The next pass does not try the candidate of the attempt, whatever its budget. -/
def Skipped (uv : Uv) (c : ClientId) (w : NodeWorld) : Prop :=
  ∀ i, w.app.myPeerCands.find? (w.clients c).myPeerAddr = some i →
    ∃ i', (tryOutConnections uv w).app.myPeerCands.find? (w.clients c).myPeerAddr = some i' ∧
      i'.myConnTryCount = i.myConnTryCount

section

variable {uv : Uv} {c : ClientId} {w : NodeWorld}

/-- An attempt that is still in the list is connected, as far as the pass can tell. -/
theorem skipped_of_held (h : PeerTables w) (hp : (⟨some c, true⟩ : PeerInfo) ∈ w.app.myPeers) :
    Skipped uv c w := by
  intro i hfind
  obtain ⟨i', hi', -, hskip⟩ := tries_pass uv h hfind
  refine ⟨i', hi', hskip fun hwill => ?_⟩
  have hconn : isPeerConnected w (w.clients c).myPeerAddr true = true :=
    isPeerConnected_iff.mpr ⟨_, hp, rfl, by simp [PeerInfo.matches]⟩
  exact absurd (hconn.symm.trans hwill.2) (by simp)

/-- An outgoing connection that has not been destroyed is in the list. -/
theorem held_of_alive (h : NodeReachable uv w) (hc : c < w.next)
    (hout : (w.clients c).kind = .peerClientOut) (halive : .destructor ∉ (w.clients c).acts) :
    (⟨some c, true⟩ : PeerInfo) ∈ w.app.myPeers := by
  have hkinds := peerKinds_reachable h
  obtain ⟨es, hv, rfl⟩ := h
  obtain ⟨⟨holds, out⟩, hp, rfl⟩ :=
    owners_pos.mp (((nodeOwned_run hv).alive c hc).mpr halive)
  cases out with
  | true => exact hp
  | false =>
    obtain ⟨-, hin⟩ := hkinds.inward ⟨some c, false⟩ (by simp [inPeers, hp]) c rfl
    exact absurd (hout.symm.trans hin) (by simp)

end

/-- **Failed attempts** are never forgotten: neither one that `connect()` fails at once, nor, as
    long as its client exists, one whose connect callback brings an error. The pass after that
    skips its candidate. -/
theorem failedAttempt_never_forgotten {uv : Uv} {w : NodeWorld} (h : NodeReachable uv w) :
    (∀ (w' : NodeWorld) (host : Str) (port : Int32), (tryOutConnection uv host port w').2 ≠ 0 →
      ¬ Forgotten uv w'.next (tryOutConnection uv host port w').1) ∧
    ∀ c < w.next, (w.clients c).kind = .peerClientOut → .destructor ∉ (w.clients c).acts →
      ∀ status : Int, status ≠ 0 →
        ¬ Forgotten uv c (nodeStep uv w (.client c (.connected status))) ∧
          Skipped uv c (nodeStep uv w (.client c (.connected status))) := by
  constructor
  · intro w' host port hres hforgot
    unfold tryOutConnection at hres hforgot
    split at hres
    · exact hres rfl
    · rename_i hself
      rw [if_neg hself] at hforgot
      refine hforgot.1 ⟨some w'.next, true⟩ ?_ rfl
      rw [app_connect]
      exact List.mem_append_right _ (List.mem_singleton.mpr rfl)
  · intro c hc hout halive status hstatus
    have hheld := held_of_alive h hc hout halive
    -- all the callback does is libuv's own bookkeeping
    obtain ⟨f, hf, hstep⟩ : ∃ f : Client → Client, (∀ k, (f k).myPeerAddr = k.myPeerAddr) ∧
        nodeStep uv w (.client c (.connected status)) = w.modify c f := by
      refine ⟨fun k => { k with tcp := { k.tcp with connecting := false } }, fun _ => rfl, ?_⟩
      show onConnect uv c status _ = _
      unfold onConnect
      split
      · rfl
      · rfl
    rw [hstep]
    exact ⟨fun hforgot => hforgot.1 _ hheld rfl,
      skipped_of_held ((peerTables_reachable h).modify c hf) hheld⟩

/-- The first attempt of a node is refused. -/
theorem failedAttempt_never_forgotten_refused :
    ¬ Forgotten Uv.cooperative 0 (nodeStep Uv.cooperative
      ((nodeSystem Uv.cooperative).run NodeWorld.init
        [.start { listenPort := 5000, listenPortRange := 5 }])
      (.client 0 (.connected (-111)))) := by
  have hv : (nodeSystem Uv.cooperative).Valid NodeWorld.init
      [.start { listenPort := 5000, listenPortRange := 5 }] := by
    decide
  exact ((failedAttempt_never_forgotten ⟨_, hv, rfl⟩).2 0 (by decide) (by decide) (by decide)
    (-111) (by decide)).1

/-- A libuv without a network: `uv_tcp_connect` answers `UV_ENETUNREACH`. -/
def Uv.unreachable : Uv := { Uv.cooperative with tcpConnect := fun _ _ => -101 }

/-- A `-peer` with its budget of a million tries, which fails at once, and one that is
    refused: the entry stays, and the next pass does not try again. -/
theorem failedAttempt_kept :
    (¬ Forgotten Uv.unreachable 0 ((nodeSystem Uv.unreachable).run NodeWorld.init
        [.start { extraPeers := ["10.0.0.1:7000".toList], listenPort := 5000,
                  listenPortRange := 5 }]) ∧
      ((tryOutConnections Uv.unreachable ((nodeSystem Uv.unreachable).run NodeWorld.init
        [.start { extraPeers := ["10.0.0.1:7000".toList], listenPort := 5000,
                  listenPortRange := 5 }])).app.myPeerCands.find? "10.0.0.1:7000".toList).map
          (fun i => (i.myConnTryCount, i.myToTry)) = some (1, 1000000)) ∧
    (nodeSystem Uv.cooperative).Valid NodeWorld.init
        [.start { extraPeers := ["10.0.0.1:7000".toList], listenPort := 5000,
                  listenPortRange := 5 }, .client 0 (.connected (-111))] ∧
    (¬ Forgotten Uv.cooperative 0 ((nodeSystem Uv.cooperative).run NodeWorld.init
        [.start { extraPeers := ["10.0.0.1:7000".toList], listenPort := 5000,
                  listenPortRange := 5 }, .client 0 (.connected (-111))]) ∧
      ((tryOutConnections Uv.cooperative ((nodeSystem Uv.cooperative).run NodeWorld.init
        [.start { extraPeers := ["10.0.0.1:7000".toList], listenPort := 5000,
                  listenPortRange := 5 },
          .client 0 (.connected (-111))])).app.myPeerCands.find? "10.0.0.1:7000".toList).map
          (fun i => (i.myConnTryCount, i.myToTry)) = some (1, 1000000)) := by
  refine ⟨⟨fun h => ?_, by decide⟩, by decide, fun h => ?_, by decide⟩
  · exact h.1 ⟨some 0, true⟩ (by decide) rfl
  · exact h.1 ⟨some 0, true⟩ (by decide) rfl

end TcpUv
