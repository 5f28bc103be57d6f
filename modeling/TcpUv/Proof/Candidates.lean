import TcpUv.Proof.Lifecycle
import TcpUv.Proof.NodeTables

/-!
# What changes the table of candidates

Candidates are added when the node starts and when a message makes it add one (`addedBy`), and
a pass counts its tries in them; nothing else touches the table, and only a port that is
listened on changes the name (`name_nodeStep`). A property of the table that survives the
additions and the counting is a `CandsInvariant`. What is added can be held to a condition,
`A` for the messages and `S` for the start parameters, and `CandsInvariant.run` is the rule
for runs whose additions all meet it.
-/

set_option autoImplicit false

namespace TcpUv

open Lib NodeApp

/-- The type of `myPeerCands`. -/
abbrev Candidates := SortedMap Str PeerCandidateInfo

/-! ## Adding a candidate -/

section

variable (a : NodeApp) {host : Str} {port : Int32} {toTry : Int} {key : Str}

/-- What stands under the key of a candidate after it was added. -/
theorem find?_addOutPeerCandidate_self :
    (a.addOutPeerCandidate host port toTry).myPeerCands.find? (endpointText host port) =
      some (match a.myPeerCands.find? (endpointText host port) with
        | some pc => { pc with myToTry := toTry + pc.myConnTryCount }
        | none => { myHost := host, myPort := port, myToTry := toTry }) := by
  cases hfind : a.myPeerCands.find? (endpointText host port) with
  | none =>
    rw [PeerTables.addOutPeerCandidate_absent hfind]
    dsimp only
    rw [SortedMap.find?_insert, if_pos rfl]
  | some pc =>
    rw [PeerTables.addOutPeerCandidate_present hfind]
    dsimp only
    rw [SortedMap.find?_modify, if_pos rfl, hfind]
    rfl

theorem find?_addOutPeerCandidate_ne (hne : key ≠ endpointText host port) :
    (a.addOutPeerCandidate host port toTry).myPeerCands.find? key = a.myPeerCands.find? key := by
  cases hfind : a.myPeerCands.find? (endpointText host port) with
  | none =>
    rw [PeerTables.addOutPeerCandidate_absent hfind]
    dsimp only
    rw [SortedMap.find?_insert, if_neg hne]
  | some pc =>
    rw [PeerTables.addOutPeerCandidate_present hfind]
    dsimp only
    rw [SortedMap.find?_modify, if_neg hne]

end

/-! ## The name and the table, connection by connection -/

section

variable {uv : Uv} {w : NodeWorld}

/-- A connection's machinery reaches neither. -/
theorem robust_nameCands (R : Str → Candidates → Prop) (c : ClientId) :
    Robust c fun w : NodeWorld => R w.app.myName w.app.myPeerCands where
  quiet _ h := h
  connectionClosed {w} h := by
    obtain ⟨-, -, -, happ⟩ := connectionClosed_spec c w
    show R (connectionClosed c w).app.myName (connectionClosed c w).app.myPeerCands
    rw [happ]
    exact h
  greets _ h := h

/-- … and neither does gossip. -/
theorem robustProcess_nameCands (uv : Uv) (R : Str → Candidates → Prop) (c : ClientId) :
    RobustProcess uv c fun w : NodeWorld => R w.app.myName w.app.myPeerCands where
  toRobust := robust_nameCands R c
  sendOtherPeers h :=
    gossip_preserves (I := fun w => R w.app.myName w.app.myPeerCands)
      (fun _ _ _ h => (robust_nameCands R c).sendMessage uv h) h

@[simp] theorem name_addOutPeerCandidate (a : NodeApp) (host : Str) (port : Int32) (toTry : Int) :
    (a.addOutPeerCandidate host port toTry).myName = a.myName := by
  unfold addOutPeerCandidate
  dsimp only
  split
  · rfl
  · rfl

@[simp] theorem name_tryOutConnections (uv : Uv) (w : NodeWorld) :
    (tryOutConnections uv w).app.myName = w.app.myName :=
  rounds_preserve (I := fun w' => w'.app.myName = w.app.myName)
    (fun key _ w' h => (name_tryCandidate uv w' key).trans h) rfl

@[simp] theorem name_addStartCandidates (a : NodeApp) (extraPeers : List Str) :
    (a.addStartCandidates extraPeers).myName = a.myName :=
  startCandidates_preserve (I := fun a' => a'.myName = a.myName)
    (fun _ h => (name_addOutPeerCandidate ..).trans h)
    (fun _ _ _ h => (name_addOutPeerCandidate ..).trans h) rfl

theorem nodeStep_start (uv : Uv) (w : NodeWorld) (params : AppParams) :
    nodeStep uv w (.start params) = (started uv params.listenPort params.listenPortRange
      { w with app := w.app.addStartCandidates params.extraPeers }).1 :=
  congrArg Prod.fst (started_eq uv params.listenPort params.listenPortRange _)

/-- The port an event makes the node listen on. -/
def NodeEvent.listensOn (uv : Uv) : NodeEvent → Option Int32
  | .start params => firstPort uv params.listenPort params.listenPortRange
  | .listenStarted port => some port
  | _ => none

/-- **The name after an event**: that of the port it listens on, if any. -/
theorem name_nodeStep (uv : Uv) (w : NodeWorld) (e : NodeEvent) :
    (nodeStep uv w e).app.myName =
      match e.listensOn uv with
      | some port => ':' :: stdToString port.toInt
      | none => w.app.myName := by
  have hlistening : ∀ (port : Int32) (w : NodeWorld),
      (listening uv port w).app.myName = ':' :: stdToString port.toInt := fun port w =>
    name_tryOutConnections uv _
  cases e with
  | start params =>
    rw [nodeStep_start]
    unfold started NodeEvent.listensOn
    dsimp only
    cases firstPort uv params.listenPort params.listenPortRange with
    | none => exact name_addStartCandidates w.app params.extraPeers
    | some port =>
      dsimp only
      split
      · exact hlistening port _
      · exact hlistening port _
  | listenStarted port => exact name_tryOutConnections uv _
  | newConnection status acceptRes =>
    show (onNewConnection uv status acceptRes w).app.myName = w.app.myName
    unfold onNewConnection
    split
    · rfl
    · split
      · rfl
      · exact (robust_nameCands (fun name _ => name = w.app.myName) w.next).doRead uv rfl
  | client c cb =>
    have hname : RobustApp uv c fun w' : NodeWorld => w'.app.myName = w.app.myName :=
      { toRobustProcess := robustProcess_nameCands uv (fun name _ => name = w.app.myName) c
        connected := fun h _ => h
        buffer := fun _ h => h
        message := fun {_ _ m} _ h =>
          messageReceived_preserves (I := fun w' => w'.app.myName = w.app.myName)
            (fun h => (robust_nameCands (fun name _ => name = w.app.myName) c).close h)
            (fun _ h => (robust_nameCands (fun name _ => name = w.app.myName) c).sendMessage uv h)
            (fun _ h => h) (fun _ _ h => (name_addOutPeerCandidate ..).trans h)
            (fun key h => (name_tryCandidate uv _ key).trans h) m h }
    show (callback uv c w cb).settle.app.myName = w.app.myName
    rw [Outcome.app_settle]
    exact hname.callback cb rfl

end

/-! ## Additions that meet a condition -/

section

variable (uv : Uv) (A : Candidates → Str → Int32 → Prop) (S : Candidates → AppParams → Prop)

/-- The candidate a message adds, if it adds one, meets `A`. -/
def AddsOnly (c : ClientId) (m : Message) (w : NodeWorld) : Prop :=
  ∀ e ∈ addedBy c m w, A w.app.myPeerCands e.1 e.2

instance decidableAddsOnly [∀ t host port, Decidable (A t host port)] (c : ClientId) (m : Message)
    (w : NodeWorld) : Decidable (AddsOnly A c m w) :=
  inferInstanceAs (Decidable (∀ e ∈ addedBy c m w, A w.app.myPeerCands e.1 e.2))

/-- All that an event adds meets the condition: `A` what its messages add, `S` what it is
    started with. -/
def NodeEvent.Adds (w : NodeWorld) : NodeEvent → Prop
  | .start params => S w.app.myPeerCands params
  | .client c cb => cb.meets uv c (AddsOnly A c) w
  | _ => True

instance decidableAdds [∀ t host port, Decidable (A t host port)]
    [∀ t params, Decidable (S t params)] (w : NodeWorld) :
    ∀ e : NodeEvent, Decidable (e.Adds uv A S w)
  | .start params => inferInstanceAs (Decidable (S w.app.myPeerCands params))
  | .client c cb => inferInstanceAs (Decidable (cb.meets uv c (AddsOnly A c) w))
  | .listenStarted _ => .isTrue trivial
  | .newConnection _ _ => .isTrue trivial

end

/-- A property of the table that counting does not break, nor additions that meet the
    condition. -/
structure CandsInvariant (A : Candidates → Str → Int32 → Prop) (S : Candidates → AppParams → Prop)
    (Q : Candidates → Prop) : Prop where
  tried : ∀ {t : Candidates} (key : Str), Q t → Q (t.modify key PeerCandidateInfo.tried)
  connected : ∀ {t : Candidates} (key : Str), Q t → Q (t.modify key PeerCandidateInfo.connected)
  message : ∀ {a : NodeApp} {host : Str} {port : Int32}, A a.myPeerCands host port →
    Q a.myPeerCands → Q (a.addOutPeerCandidate host port 1).myPeerCands
  started : ∀ {a : NodeApp} {params : AppParams}, S a.myPeerCands params →
    Q a.myPeerCands → Q (a.addStartCandidates params.extraPeers).myPeerCands

namespace CandsInvariant

variable {A : Candidates → Str → Int32 → Prop} {S : Candidates → AppParams → Prop}
  {Q : Candidates → Prop} (hQ : CandsInvariant A S Q) (uv : Uv) {w : NodeWorld}

include hQ

theorem tryCandidate (key : Str) (h : Q w.app.myPeerCands) :
    Q (tryCandidate uv w key).app.myPeerCands := by
  have hround := round_tryCandidate uv w key
  generalize NodeApp.tryCandidate uv w key = w' at hround ⊢
  cases hround with
  | skipped => exact h
  | self => exact hQ.connected key (hQ.tried key h)
  | attempted i =>
    show Q ((connect uv w.next (appendOut i.myHost i.myPort _)).1.app.myPeerCands.modify key _)
    rw [app_connect]
    exact hQ.connected key (hQ.tried key h)
  | failed =>
    rw [app_connect]
    exact hQ.tried key h

theorem tryOutConnections (h : Q w.app.myPeerCands) :
    Q (tryOutConnections uv w).app.myPeerCands :=
  rounds_preserve (I := fun w => Q w.app.myPeerCands) (fun key _ _ h => hQ.tryCandidate uv key h) h

/-- A connection whose messages add only what meets the condition. -/
theorem robustAppWhen (c : ClientId) :
    RobustAppWhen uv c (AddsOnly A c) fun w : NodeWorld => Q w.app.myPeerCands where
  toRobustProcess := robustProcess_nameCands uv (fun _ t => Q t) c
  connected h _ := h
  buffer _ h := h
  message {w _ m} _ hadds h := by
    -- until the candidate is added, the table is the one the condition is about
    have hbefore : Robust c fun w' : NodeWorld => w'.app.myPeerCands = w.app.myPeerCands :=
      robust_nameCands (fun _ t => t = w.app.myPeerCands) c
    refine messageReceived_adds
      (B := fun w' => w'.app.myPeerCands = w.app.myPeerCands) (I := fun w => Q w.app.myPeerCands)
      (fun h => hbefore.close h) (fun _ h => hbefore.sendMessage uv h) (fun _ h => h) (fun hB => ?_)
      (fun {w'} host port hadded hB => ?_) (fun key h => hQ.tryCandidate uv key h)
      (fun _ h => (robust_nameCands (fun _ t => Q t) c).sendMessage uv h) rfl
    · rw [hB]
      exact h
    · refine hQ.message ?_ ?_
      · rw [hB]
        exact hadds (host, port) hadded
      · rw [hB]
        exact h

theorem listening (port : Int32) (h : Q w.app.myPeerCands) :
    Q (listening uv port w).app.myPeerCands :=
  hQ.tryOutConnections uv (w := { w with
    net := { w.net with listening := true }
    app := { w.app with myName := ':' :: stdToString port.toInt } }) h

/-- One event. -/
theorem step {e : NodeEvent} (he : e.Adds uv A S w) (h : Q w.app.myPeerCands) :
    Q (nodeStep uv w e).app.myPeerCands := by
  cases e with
  | start params =>
    have hstarted := hQ.started he h
    rw [nodeStep_start]
    unfold TcpUv.started
    cases firstPort uv params.listenPort params.listenPortRange with
    | none => exact hstarted
    | some port =>
      dsimp only
      split
      · exact hQ.listening uv port hstarted
      · exact hQ.listening uv port hstarted
  | listenStarted port =>
    exact hQ.tryOutConnections uv
      (w := { w with app := { w.app with myName := ':' :: stdToString port.toInt } }) h
  | newConnection status acceptRes =>
    show Q (onNewConnection uv status acceptRes w).app.myPeerCands
    unfold onNewConnection
    split
    · exact h
    · split
      · exact h
      · exact (robust_nameCands (fun _ t => Q t) w.next).doRead uv h
  | client c cb =>
    show Q (callback uv c w cb).settle.app.myPeerCands
    rw [Outcome.app_settle]
    exact (hQ.robustAppWhen uv c).callback cb he h

/-- **It holds after every run** whose additions all meet the condition. -/
theorem run {es : List NodeEvent}
    (hadds : (nodeSystem uv).Along (fun w e => e.Adds uv A S w) w es)
    (h : Q w.app.myPeerCands) : Q ((nodeSystem uv).run w es).app.myPeerCands := by
  induction es generalizing w with
  | nil => exact h
  | cons e es ih => exact ih hadds.2 (hQ.step uv hadds.1 h)

end CandsInvariant

end TcpUv
