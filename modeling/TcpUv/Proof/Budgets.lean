import TcpUv.Proof.Candidates
import TcpUv.Proof.Pass

/-!
# Retry budgets

What is left of a candidate's budget is `myToTry - myConnTryCount`. A try takes one away, and
for a candidate that is not the node itself a try is a connection made and dialled (`Tally`).
But `addOutPeerCandidate` on a candidate it finds sets what is left to its argument, whatever
was left before. So gossip does lower a budget: a `-peer` with its million tries, once a peer
names it, has one. And a candidate that is the node itself is tried by every pass, and never
connected to.

The result says that these are the only ways: along every run whose additions find no candidate
with more left than they bring (`RaisesTo`), the budget of a candidate that is not the node
itself (`NotThisNode`) is lowered by attempts to connect alone.
-/

set_option autoImplicit false

namespace TcpUv

open Lib NodeApp

/-- The tries a candidate has left. -/
def PeerCandidateInfo.remaining (i : PeerCandidateInfo) : Int := i.myToTry - i.myConnTryCount

/-- The connections the node has made to a candidate: one object for each. -/
def dials (key : Str) (w : NodeWorld) : Nat :=
  (List.range w.next).countP fun c =>
    (w.clients c).kind = .peerClientOut ∧ (w.clients c).myPeerAddr = key

/-- Over a run the budget of a candidate is lowered by attempts to connect alone, one for each;
    and each try that is counted is one. -/
def BudgetKept (uv : Uv) (w : NodeWorld) (es : List NodeEvent) (key : Str)
    (i : PeerCandidateInfo) : Prop :=
  ∃ i', ((nodeSystem uv).run w es).app.myPeerCands.find? key = some i' ∧
    i.remaining ≤ i'.remaining + (dials key ((nodeSystem uv).run w es) - dials key w) ∧
    i.myConnTryCount ≤ i'.myConnTryCount ∧
    i'.myConnTryCount - i.myConnTryCount = dials key ((nodeSystem uv).run w es) - dials key w

/-! ## The candidate and the node -/

/-- The name under which the node looks at its candidates in an event: that of the port it is
    made to listen on, if any, or the one it has. -/
def nameAt (uv : Uv) (w : NodeWorld) (e : NodeEvent) : Str :=
  match e.listensOn uv with
  | some port => ':' :: stdToString port.toInt
  | none => w.app.myName

/-- The candidate is not this node, when it is looked at. -/
def NotThisNode (uv : Uv) (i : PeerCandidateInfo) (w : NodeWorld) (e : NodeEvent) : Prop :=
  ¬ (':' :: stdToString i.myPort.toInt = nameAt uv w e ∧ i.myHost ∈ loopbackHosts)

instance (uv : Uv) (i : PeerCandidateInfo) (w : NodeWorld) (e : NodeEvent) :
    Decidable (NotThisNode uv i w e) :=
  inferInstanceAs (Decidable (¬ (_ ∧ _)))

/-! ## What an addition brings -/

/-- Adding the candidate with this many tries takes none from it: if it is there, it has no
    more left. -/
def RaisesTo (toTry : Int) (t : Candidates) (host : Str) (port : Int32) : Prop :=
  ∀ i ∈ t.find? (endpointText host port), i.remaining ≤ toTry

/-- … and neither do the two local candidates a start adds. -/
def StartRaises (t : Candidates) (_ : AppParams) : Prop :=
  RaisesTo 1 t textLocalhost 5000 ∧ RaisesTo 1 t textLocalhost 5001

instance (toTry : Int) (t : Candidates) (host : Str) (port : Int32) :
    Decidable (RaisesTo toTry t host port) :=
  inferInstanceAs (Decidable (∀ i ∈ t.find? (endpointText host port), i.remaining ≤ toTry))

instance (t : Candidates) (params : AppParams) : Decidable (StartRaises t params) :=
  inferInstanceAs (Decidable (_ ∧ _))

/-- No candidate has more left than a `-peer` is given. -/
def Capped (t : Candidates) : Prop := ∀ k i, t.find? k = some i → i.remaining ≤ 1000000

/-- The candidate is still there, its tries counted up, and its budget not cut. -/
def Budgeted (key : Str) (i : PeerCandidateInfo) (t : Candidates) : Prop :=
  ∃ i', t.find? key = some i' ∧ i.myToTry ≤ i'.myToTry ∧ i.myConnTryCount ≤ i'.myConnTryCount

section

variable {key : Str} {i : PeerCandidateInfo} {t : Candidates} {a : NodeApp} {host : Str}
  {port : Int32} {toTry : Int}

/-- An update in place that does not raise what is left. -/
theorem Capped.modify (h : Capped t) (k : Str) {f : PeerCandidateInfo → PeerCandidateInfo}
    (hf : ∀ i, (f i).remaining ≤ i.remaining) : Capped (t.modify k f) := by
  intro k' j hj
  rw [SortedMap.find?_modify] at hj
  split at hj
  · obtain ⟨j₀, hj₀, rfl⟩ := Option.map_eq_some_iff.mp hj
    exact (hf j₀).trans (h k' j₀ hj₀)
  · exact h k' j hj

theorem Capped.addOutPeerCandidate (h : Capped a.myPeerCands) (hcap : toTry ≤ 1000000) :
    Capped (a.addOutPeerCandidate host port toTry).myPeerCands := by
  intro k j hj
  by_cases hk : k = endpointText host port
  · subst hk
    rw [find?_addOutPeerCandidate_self, Option.some.injEq] at hj
    subst hj
    unfold PeerCandidateInfo.remaining
    split
    · dsimp only
      omega
    · dsimp only
      omega
  · rw [find?_addOutPeerCandidate_ne a hk] at hj
    exact h k j hj

/-- An update in place that cuts no budget and uncounts no try. -/
theorem Budgeted.modify (h : Budgeted key i t) (k : Str)
    {f : PeerCandidateInfo → PeerCandidateInfo}
    (hf : ∀ i, i.myToTry ≤ (f i).myToTry ∧ i.myConnTryCount ≤ (f i).myConnTryCount) :
    Budgeted key i (t.modify k f) := by
  obtain ⟨i', hfind, hbudget, htries⟩ := h
  by_cases hk : key = k
  · refine ⟨f i', ?_, hbudget.trans (hf i').1, htries.trans (hf i').2⟩
    rw [SortedMap.find?_modify, if_pos hk, hfind]
    rfl
  · refine ⟨i', ?_, hbudget, htries⟩
    rw [SortedMap.find?_modify, if_neg hk, hfind]

/-- **An addition cuts no budget** of a candidate that has no more left than it brings. -/
theorem Budgeted.addOutPeerCandidate (h : Budgeted key i a.myPeerCands)
    (hraises : RaisesTo toTry a.myPeerCands host port) :
    Budgeted key i (a.addOutPeerCandidate host port toTry).myPeerCands := by
  obtain ⟨i', hfind, hbudget, htries⟩ := h
  by_cases hk : key = endpointText host port
  · subst hk
    have hleft := hraises i' hfind
    unfold PeerCandidateInfo.remaining at hleft
    refine ⟨_, find?_addOutPeerCandidate_self a, ?_, ?_⟩
    · rw [hfind]
      show i.myToTry ≤ toTry + i'.myConnTryCount
      omega
    · rw [hfind]
      exact htries
  · exact ⟨i', (find?_addOutPeerCandidate_ne a hk).trans hfind, hbudget, htries⟩

end

/-- The cap, and the budget of one candidate, along additions that bring enough. -/
theorem candsInvariant_budget (key : Str) (i : PeerCandidateInfo) :
    CandsInvariant (RaisesTo 1) StartRaises fun t => Capped t ∧ Budgeted key i t where
  tried k h := by
    refine ⟨h.1.modify k fun j => ?_, h.2.modify k fun j => ⟨Int.le_refl _, ?_⟩⟩
    · show j.myToTry - (j.myConnTryCount + 1) ≤ j.myToTry - j.myConnTryCount
      omega
    · show j.myConnTryCount ≤ j.myConnTryCount + 1
      omega
  connected k h :=
    ⟨h.1.modify k fun _ => Int.le_refl _, h.2.modify k fun _ => ⟨Int.le_refl _, Int.le_refl _⟩⟩
  message hraises h := ⟨h.1.addOutPeerCandidate (by decide), h.2.addOutPeerCandidate hraises⟩
  started {a params} hraises h := by
    have hfirst := h.2.addOutPeerCandidate hraises.1
    have hsecond : RaisesTo 1 (a.addOutPeerCandidate textLocalhost 5000 1).myPeerCands
        textLocalhost 5001 := by
      unfold RaisesTo
      rw [find?_addOutPeerCandidate_ne a (by decide)]
      exact hraises.2
    refine extraPeers_preserve
      (I := fun a => Capped a.myPeerCands ∧ Budgeted key i a.myPeerCands) (fun p _ a h => ?_)
      ⟨(h.1.addOutPeerCandidate (by decide)).addOutPeerCandidate (by decide),
        hfirst.addOutPeerCandidate hsecond⟩
    exact ⟨h.1.addOutPeerCandidate (by decide), h.2.addOutPeerCandidate (h.1 _)⟩

/-- The cap needs no condition. -/
theorem candsInvariant_capped :
    CandsInvariant (fun _ _ _ => True) (fun _ _ => True) Capped where
  tried k h := h.modify k fun j => by
    show j.myToTry - (j.myConnTryCount + 1) ≤ j.myToTry - j.myConnTryCount
    omega
  connected k h := h.modify k fun _ => Int.le_refl _
  message _ h := h.addOutPeerCandidate (by decide)
  started _ h := startCandidates_preserve (I := fun a => Capped a.myPeerCands)
    (fun _ h => h.addOutPeerCandidate (by decide))
    (fun _ _ _ h => h.addOutPeerCandidate (by decide)) h

/-! ## Tries and connections -/

section

variable {uv : Uv} {key : Str} {i : PeerCandidateInfo} {n : Int} {w w' : NodeWorld}

theorem dials_congr (hnext : w'.next = w.next) (hsame : ∀ c < w.next,
    (w'.clients c).kind = (w.clients c).kind ∧
      (w'.clients c).myPeerAddr = (w.clients c).myPeerAddr) : dials key w' = dials key w := by
  unfold dials
  rw [hnext]
  refine List.countP_congr fun c hc => ?_
  obtain ⟨hkind, haddr⟩ := hsame c (List.mem_range.mp hc)
  rw [hkind, haddr]

/-- One more object. -/
theorem dials_succ (hnext : w'.next = w.next + 1)
    (hsame : ∀ c < w.next, w'.clients c = w.clients c) :
    dials key w' = dials key w +
      if (w'.clients w.next).kind = .peerClientOut ∧ (w'.clients w.next).myPeerAddr = key then 1
      else 0 := by
  unfold dials
  rw [hnext, List.range_succ, List.countP_append, List.countP_singleton]
  congr 1
  · refine List.countP_congr fun c hc => ?_
    rw [hsame c (List.mem_range.mp hc)]
  · simp

/-- The tries of a candidate, less its connections, are `n`. -/
def Tally (key : Str) (i : PeerCandidateInfo) (n : Int) (w : NodeWorld) : Prop :=
  ∃ i', w.app.myPeerCands.find? key = some i' ∧ i'.myHost = i.myHost ∧ i'.myPort = i.myPort ∧
    i'.myConnTryCount - dials key w = n

/-- The tally of a candidate that is not the node itself. -/
structure Tallied (key : Str) (i : PeerCandidateInfo) (n : Int) (w : NodeWorld) : Prop where
  tables : PeerTables w
  other : ¬ IsSelf w i
  tally : Tally key i n w

theorem Tallied.modify (h : Tallied key i n w) (c : ClientId) {f : Client → Client}
    (hf : ∀ k, (f k).kind = k.kind ∧ (f k).myPeerAddr = k.myPeerAddr) :
    Tallied key i n (w.modify c f) := by
  refine ⟨h.tables.modify c fun k => (hf k).2, h.other, ?_⟩
  have hdials : dials key (w.modify c f) = dials key w := dials_congr rfl fun d _ => by
    rw [World.clients_modify]
    split
    · exact hf _
    · exact ⟨rfl, rfl⟩
  unfold Tally
  rw [hdials]
  exact h.tally

theorem Tallied.connectionClosed (h : Tallied key i n w) (c : ClientId) :
    Tallied key i n (NodeApp.connectionClosed c w) := by
  obtain ⟨hquiet, hnext, -, happ⟩ := connectionClosed_spec c w
  refine ⟨h.tables.connectionClosed c, ?_, ?_⟩
  · unfold IsSelf
    rw [happ]
    exact h.other
  · unfold Tally
    rw [dials_congr hnext fun d _ => ⟨(hquiet d).kind, (hquiet d).myPeerAddr⟩, happ]
    exact h.tally

theorem Tally.addOutPeerCandidate (h : Tally key i n w) (host : Str) (port : Int32) (toTry : Int) :
    Tally key i n { w with app := w.app.addOutPeerCandidate host port toTry } := by
  obtain ⟨i', hfind, hhost, hport, hn⟩ := h
  by_cases hk : key = endpointText host port
  · subst hk
    refine ⟨_, find?_addOutPeerCandidate_self w.app, ?_, ?_, ?_⟩
    · rw [hfind]
      exact hhost
    · rw [hfind]
      exact hport
    · rw [hfind]
      exact hn
  · exact ⟨i', (find?_addOutPeerCandidate_ne w.app hk).trans hfind, hhost, hport, hn⟩

theorem Tallied.addOutPeerCandidate (h : Tallied key i n w) (host : Str) (port : Int32)
    {toTry : Int} (hpos : 0 ≤ toTry) :
    Tallied key i n { w with app := w.app.addOutPeerCandidate host port toTry } := by
  refine ⟨h.tables.addOutPeerCandidate host port toTry hpos, ?_, h.tally.addOutPeerCandidate ..⟩
  unfold IsSelf
  rw [name_addOutPeerCandidate]
  exact h.other

/-- Accepting a connection makes none. -/
theorem Tallied.inConnectionReceived (h : Tallied key i n w) (a : Str) :
    Tallied key i n (NodeApp.inConnectionReceived w.next (w.create (NetClientIn.new a))) := by
  refine ⟨h.tables.inConnectionReceived _, h.other, ?_⟩
  have hdials : dials key (NodeApp.inConnectionReceived w.next (w.create (NetClientIn.new a))) = _ :=
    dials_succ rfl fun c hc => World.clients_create_ne w _ (Nat.ne_of_lt hc)
  have hnew : (NodeApp.inConnectionReceived w.next (w.create (NetClientIn.new a))).clients w.next =
      NetClientIn.new a := World.clients_create_next w _
  have hin : ¬ ((NetClientIn.new a).kind = .peerClientOut ∧ (NetClientIn.new a).myPeerAddr = key) :=
    fun hout => nomatch hout.1
  rw [hnew, if_neg hin, Nat.add_zero] at hdials
  unfold Tally
  rw [hdials]
  exact h.tally

/-- **A try is a connection.** -/
theorem Tallied.tryCandidate (h : Tallied key i n w) (key' : Str) :
    Tallied key i n (tryCandidate uv w key') := by
  have hother : ¬ IsSelf (NodeApp.tryCandidate uv w key') i := by
    unfold IsSelf
    rw [name_tryCandidate]
    exact h.other
  refine ⟨h.tables.tryCandidate uv key', hother, ?_⟩
  have hround := roundMade_tryCandidate uv w key'
  have hold : ∀ c < w.next, (NodeApp.tryCandidate uv w key').clients c = w.clients c :=
    fun c hc => clients_tryCandidate uv hc key'
  obtain ⟨i', hfind, hhost, hport, hn⟩ := h.tally
  -- what a round makes of the connections, by whether it makes one
  have hidle : attempted w key' = none →
      dials key (NodeApp.tryCandidate uv w key') = dials key w := fun hnone =>
    dials_congr (hround.idle hnone).1 fun c hc => by rw [hold c hc]; exact ⟨rfl, rfl⟩
  have hdialled : ∀ j, attempted w key' = some j →
      dials key (NodeApp.tryCandidate uv w key') = dials key w + if key' = key then 1 else 0 := by
    intro j hj
    obtain ⟨hnext, -, hnew⟩ := hround.dialled j hj
    have haddr : (dialled uv w.next j).kind = .peerClientOut ∧
        (dialled uv w.next j).myPeerAddr = key' := by
      rw [h.tables.key key' j (attempted_eq_some.mp hj).1]
      unfold dialled
      dsimp only
      split
      · exact ⟨rfl, rfl⟩
      · exact ⟨rfl, rfl⟩
    rw [dials_succ hnext hold, hnew, haddr.1, haddr.2]
    simp
  by_cases hk : key' = key
  · subst hk
    by_cases hwill : WillTry w key' i'
    · have hself : ¬ IsSelf w i' := by
        unfold IsSelf
        rw [hhost, hport]
        exact h.other
      have hcount := hdialled i' (attempted_eq_some.mpr ⟨hfind, hwill, hself⟩)
      rw [if_pos rfl] at hcount
      obtain ⟨i'', hfind'', hcase⟩ := hround.tried i' hfind hwill
      have htried : i''.myHost = i'.myHost ∧ i''.myPort = i'.myPort ∧
          i''.myConnTryCount = i'.myConnTryCount + 1 := by
        rcases hcase with rfl | rfl
        · exact ⟨rfl, rfl, rfl⟩
        · exact ⟨rfl, rfl, rfl⟩
      refine ⟨i'', hfind'', htried.1.trans hhost, htried.2.1.trans hport, ?_⟩
      rw [htried.2.2, hcount]
      push_cast
      omega
    · rw [hround.skipped fun j hj => (Option.some.inj (hfind.symm.trans hj)) ▸ hwill]
      exact ⟨i', hfind, hhost, hport, hn⟩
  · refine ⟨i', (find?_tryCandidate_ne uv (Ne.symm hk)).trans hfind, hhost, hport, ?_⟩
    cases hthis : attempted w key' with
    | none =>
      rw [hidle hthis]
      exact hn
    | some j =>
      rw [hdialled j hthis, if_neg hk, Nat.add_zero]
      exact hn

theorem robustNode_tallied (uv : Uv) (key : Str) (i : PeerCandidateInfo) (n : Int) :
    RobustNode uv (Tallied key i n) where
  quiet _ hf h := h.modify _ fun k => ⟨(hf k).kind, (hf k).myPeerAddr⟩
  connectionClosed _ h := h.connectionClosed _
  greets _ _ h := h.modify _ fun _ => ⟨rfl, rfl⟩
  handshakeResponse _ h := h.modify _ fun _ => ⟨rfl, rfl⟩
  pingResponse _ _ h := h.modify _ fun _ => ⟨rfl, rfl⟩
  otherPeer _ _ _ h := h.modify _ fun _ => ⟨rfl, rfl⟩
  canonical _ _ _ _ _ h := h.modify _ fun _ => ⟨rfl, rfl⟩
  canonicalCandidate _ _ _ _ h := h.addOutPeerCandidate _ _ (by decide)
  candidate _ h := h.addOutPeerCandidate _ _ (by decide)
  tryCandidate _ h := h.tryCandidate _

/-- A connection's callbacks. -/
theorem robustApp_tallied (uv : Uv) (key : Str) (i : PeerCandidateInfo) (n : Int) (c : ClientId) :
    RobustApp uv c fun w => c < w.next ∧ Tallied key i n w where
  toRobustProcess := (robustNode_tallied uv key i n).robustProcess c
  connected h _ := ⟨h.1, h.2.modify _ fun _ => ⟨rfl, rfl⟩⟩
  buffer _ h := ⟨h.1, h.2.modify _ fun _ => ⟨rfl, rfl⟩⟩
  message hline h :=
    (robustNode_tallied uv key i n).messageReceived (wf_of_parseLine hline)
      ⟨h.1, h.2.modify _ fun _ => ⟨rfl, rfl⟩⟩

/-- Listening, under a name that is not the candidate's. -/
theorem Tallied.tryOutConnections (h : Tallied key i n w) :
    Tallied key i n (tryOutConnections uv w) :=
  rounds_preserve (fun key' _ _ h => h.tryCandidate key') h

/-- **One event** under which the candidate is not the node itself. -/
theorem tally_step (htables : PeerTables w) (h : Tally key i n w) {e : NodeEvent}
    (ha : (nodeSystem uv).allowed w e) (hother : NotThisNode uv i w e) :
    Tally key i n (nodeStep uv w e) := by
  unfold NotThisNode nameAt at hother
  have hlistening : ∀ (port : Int32) {w : NodeWorld}, PeerTables w → Tally key i n w →
      ¬ (':' :: stdToString i.myPort.toInt = ':' :: stdToString port.toInt ∧
        i.myHost ∈ loopbackHosts) → Tally key i n (listenStarted uv port w) := by
    intro port w htables h hother
    have hnamed : Tallied key i n
        { w with app := { w.app with myName := ':' :: stdToString port.toInt } } :=
      ⟨htables.of_sublist rfl (List.Sublist.refl _) le_rfl fun _ _ => rfl, hother, h⟩
    exact hnamed.tryOutConnections.tally
  cases e with
  | start params =>
    have hstarted : Tally key i n { w with app := w.app.addStartCandidates params.extraPeers } :=
      startCandidates_preserve (I := fun a => Tally key i n { w with app := a })
        (fun _ h => h.addOutPeerCandidate ..) (fun _ _ _ h => h.addOutPeerCandidate ..) h
    have htables' := htables.addStartCandidates params.extraPeers
    rw [nodeStep_start]
    unfold started
    cases hport : firstPort uv params.listenPort params.listenPortRange with
    | none => exact hstarted
    | some port =>
      rw [show (NodeEvent.start params).listensOn uv = some port from hport] at hother
      have hnet := hlistening port (w := { w with
          net := { w.net with listening := true }
          app := w.app.addStartCandidates params.extraPeers })
        (htables'.of_sublist rfl (List.Sublist.refl _) le_rfl fun _ _ => rfl) hstarted hother
      dsimp only
      split
      · exact hnet
      · exact hnet
  | listenStarted port => exact hlistening port htables h hother
  | newConnection status acceptRes =>
    show Tally key i n (onNewConnection uv status acceptRes w)
    unfold onNewConnection
    split
    · exact h
    · split
      · exact h
      · have hin := Tallied.inConnectionReceived ⟨htables, hother, h⟩
          (getRemoteAddress uv (uv.getpeername w.next 1))
        exact (((robustNode_tallied uv key i n).robust w.next).doRead uv
          ⟨Nat.lt_succ_self w.next, hin⟩).2.tally
  | client c cb =>
    have hcb := (robustApp_tallied uv key i n c).callback cb ⟨ha.2.1, ⟨htables, hother, h⟩⟩
    show Tally key i n (callback uv c w cb).settle
    cases ho : callback uv c w cb with
    | returns w' => rw [ho] at hcb; exact hcb.2.tally
    | throws e w' => rw [ho] at hcb; exact hcb.2.tally

/-- … and a run of them. -/
theorem tally_run {es : List NodeEvent} (htables : PeerTables w) (h : Tally key i n w)
    (hv : (nodeSystem uv).Valid w es)
    (hother : (nodeSystem uv).Along (NotThisNode uv i) w es) :
    Tally key i n ((nodeSystem uv).run w es) := by
  have hboth := Lib.System.run_invariant_along
    (I := fun w => PeerTables w ∧ Tally key i n w)
    (fun w e h ha ho => ⟨(nodeInvariant_peerTables uv).step ha (by cases e <;> trivial) h.1,
      tally_step h.1 h.2 ha ho⟩) ⟨htables, h⟩ hv hother
  exact hboth.2

end

/-! ## The result -/

theorem capped_reachable {uv : Uv} {w : NodeWorld} (h : NodeReachable uv w) :
    Capped w.app.myPeerCands := by
  refine Lib.System.reachable_invariant (I := fun w => Capped w.app.myPeerCands) h
    (fun _ _ hi => nomatch hi) fun w e hw _ => candsInvariant_capped.step uv (e := e) ?_ hw
  cases e with
  | client c cb => exact cb.meets_of_forall uv c (fun _ _ _ _ => trivial) w
  | start => trivial
  | listenStarted => trivial
  | newConnection => trivial

/-- **Budgets.** Along every run of a node whose additions bring at least what they find, the
    budget of each candidate that is not the node itself is lowered by attempts to connect
    alone. -/
theorem budget_kept {uv : Uv} {w : NodeWorld} (h : NodeReachable uv w) {es : List NodeEvent}
    (hv : (nodeSystem uv).Valid w es)
    (hadds : (nodeSystem uv).Along (fun w e => e.Adds uv (RaisesTo 1) StartRaises w) w es)
    {key : Str} {i : PeerCandidateInfo} (hfind : w.app.myPeerCands.find? key = some i)
    (hother : (nodeSystem uv).Along (NotThisNode uv i) w es) : BudgetKept uv w es key i := by
  obtain ⟨-, i', hfind', hbudget, htries⟩ := (candsInvariant_budget key i).run uv hadds
    ⟨capped_reachable h, i, hfind, Int.le_refl _, Int.le_refl _⟩
  obtain ⟨j, hj, -, -, hn⟩ := tally_run (n := i.myConnTryCount - dials key w)
    (peerTables_reachable h) ⟨i, hfind, rfl, rfl, rfl⟩ hv hother
  obtain rfl : i' = j := Option.some.inj (hfind'.symm.trans hj)
  have hdials : i'.myConnTryCount - i.myConnTryCount =
      dials key ((nodeSystem uv).run w es) - dials key w := by omega
  refine ⟨i', hfind', ?_, htries, hdials⟩
  unfold PeerCandidateInfo.remaining
  omega

/-- A node with a `-peer`, which it has dialled. -/
def withPeer : NodeWorld := (nodeSystem Uv.cooperative).run NodeWorld.init
  [.start { extraPeers := ["10.0.0.1:7000".toList], listenPort := 5000, listenPortRange := 5 }]

/-- A peer connects to it, and names a candidate. -/
def named (line : Str) : List NodeEvent :=
  [.newConnection 0 0, .client 2 (.read line.length (some line))]

theorem withPeer_reachable : NodeReachable Uv.cooperative withPeer :=
  ⟨[.start { extraPeers := ["10.0.0.1:7000".toList], listenPort := 5000, listenPortRange := 5 }],
    by decide, rfl⟩

/-- A local candidate whose try is used up gets another one. -/
theorem budget_kept_local : ∃ i,
    withPeer.app.myPeerCands.find? "localhost:5001".toList = some i ∧ i.remaining = 0 ∧
    BudgetKept Uv.cooperative withPeer (named "OPEER localhost 5001\n".toList)
      "localhost:5001".toList i := by
  have hfind : withPeer.app.myPeerCands.find? "localhost:5001".toList =
      some ⟨textLocalhost, 5001, 1, 1, 1⟩ := by decide
  exact ⟨_, hfind, by decide, budget_kept withPeer_reachable (by decide) (by decide) hfind
    (by decide)⟩

/-- A node that was given itself for a `-peer`. -/
def withItself : NodeWorld := (nodeSystem Uv.cooperative).run NodeWorld.init
  [.start { extraPeers := ["localhost:5000".toList], listenPort := 5000, listenPortRange := 5 }]

theorem withItself_reachable : NodeReachable Uv.cooperative withItself :=
  ⟨[.start { extraPeers := ["localhost:5000".toList], listenPort := 5000, listenPortRange := 5 }],
    by decide, rfl⟩

/-- A peer connects to it, and names somebody else. -/
def namedElse : List NodeEvent :=
  [.newConnection 0 0, .client 1 (.read 20 (some "OPEER 10.0.0.1 7000\n".toList))]

/-- The `-peer` had all but one of its million tries left; a peer names it, and it has one. And a
    node that is its own `-peer` loses one of its tries in a pass that does not connect to it. -/
theorem budget_lowered :
    (NodeReachable Uv.cooperative withPeer ∧
    (nodeSystem Uv.cooperative).Valid withPeer (named "OPEER 10.0.0.1 7000\n".toList) ∧
    (withPeer.app.myPeerCands.find? "10.0.0.1:7000".toList).map
      (fun i => (i.remaining, i.myConnTryCount)) = some (999999, 1) ∧
    (((nodeSystem Uv.cooperative).run withPeer
      (named "OPEER 10.0.0.1 7000\n".toList)).app.myPeerCands.find? "10.0.0.1:7000".toList).map
        (fun i => (i.remaining, i.myConnTryCount)) = some (1, 1) ∧
    ∃ i, withPeer.app.myPeerCands.find? "10.0.0.1:7000".toList = some i ∧
      ¬ BudgetKept Uv.cooperative withPeer (named "OPEER 10.0.0.1 7000\n".toList)
        "10.0.0.1:7000".toList i) ∧
    (NodeReachable Uv.cooperative withItself ∧
    (nodeSystem Uv.cooperative).Valid withItself namedElse ∧
    dials "localhost:5000".toList ((nodeSystem Uv.cooperative).run withItself namedElse) = 0 ∧
    ∃ i, withItself.app.myPeerCands.find? "localhost:5000".toList = some i ∧
      i.remaining = 999999 ∧
      ¬ BudgetKept Uv.cooperative withItself namedElse "localhost:5000".toList i) := by
  have hfind : withPeer.app.myPeerCands.find? "10.0.0.1:7000".toList =
      some ⟨"10.0.0.1".toList, 7000, 1000000, 1, 1⟩ := by decide
  have hself : withItself.app.myPeerCands.find? "localhost:5000".toList =
      some ⟨textLocalhost, 5000, 1000000, 1, 1⟩ := by decide
  refine ⟨⟨withPeer_reachable, by decide, by decide, by decide, _, hfind, ?_⟩,
    withItself_reachable, by decide, by decide, _, hself, by decide, ?_⟩
  · rintro ⟨i', hfind', hleft, -⟩
    have hafter : ((nodeSystem Uv.cooperative).run withPeer
        (named "OPEER 10.0.0.1 7000\n".toList)).app.myPeerCands.find? "10.0.0.1:7000".toList =
          some ⟨"10.0.0.1".toList, 7000, 2, 1, 1⟩ := by decide
    obtain rfl := Option.some.inj (hfind'.symm.trans hafter)
    exact absurd hleft (by decide)
  · rintro ⟨i', hfind', hleft, -⟩
    have hafter : ((nodeSystem Uv.cooperative).run withItself namedElse).app.myPeerCands.find?
        "localhost:5000".toList = some ⟨textLocalhost, 5000, 1000000, 2, 2⟩ := by decide
    obtain rfl := Option.some.inj (hfind'.symm.trans hafter)
    exact absurd hleft (by decide)

end TcpUv
