import TcpUv.Node
import TcpUv.Proof.Rules

/-!
# What a node can do to its world

The rules of `Rules.lean`, carried through the handlers of `NodeApp`. A property of the
whole process is robust for a node (`RobustNode`) when no connection's machinery breaks
it, none of the messages a node writes on a connection breaks it, and neither does
learning a candidate, an address, or one round of the connection pass. Where a handler
computes from what it read *earlier* in the same call — the list of connected peers, the
address a handshake came from — the field quantifies over the earlier world as well.

`NodeInvariant` adds what only the environment brings about: arrivals, accepted
connections, and starting to listen. Its rule is `NodeInvariant.reachable`.
-/

set_option autoImplicit false

namespace TcpUv

open Lib

/-! ## Candidates -/

/-- `++i->second.myConnTryCount` -/
def PeerCandidateInfo.tried (i : PeerCandidateInfo) : PeerCandidateInfo :=
  { i with myConnTryCount := i.myConnTryCount + 1 }

/-- `++i->second.myConnectedCount` -/
def PeerCandidateInfo.connected (i : PeerCandidateInfo) : PeerCandidateInfo :=
  { i with myConnectedCount := i.myConnectedCount + 1 }

/-- The candidate may be tried. -/
def PeerCandidateInfo.InBudget (i : PeerCandidateInfo) : Prop :=
  i.myConnTryCount = 0 ∨ i.myConnTryCount < i.myToTry

namespace NodeApp

/-! ## `connectionClosed`, by what it leaves -/

/-- The entries that keep their client when the client `c` reports its end. -/
def stays (w : NodeWorld) (c : ClientId) (p : PeerInfo) : Bool :=
  match p.myClient with
  | none => false
  | some d => ¬ (d = c ∨ (w.clients d).myPeerAddr = (w.clients c).myPeerAddr)

theorem eraseDisconnected_eq : ∀ (n : Nat) {l : List PeerInfo}, l.length ≤ n →
    eraseDisconnected n l = l.filter fun p => p.myClient.isSome := by
  intro n
  induction n with
  | zero =>
    intro l hl
    rw [List.length_eq_zero_iff.mp (Nat.le_zero.mp hl)]
    rfl
  | succ n ih =>
    intro l hl
    rw [eraseDisconnected]
    split
    · rename_i hany
      obtain ⟨p, hp, hnone⟩ := List.any_eq_true.mp hany
      have hlen := List.length_eraseP_of_mem (p := fun p => p.myClient.isNone) hp hnone
      have hpos : 0 < l.length := List.length_pos_of_mem hp
      rw [ih (by omega)]
      -- the erased entry is one the filter drops
      obtain ⟨a, l₁, l₂, _, ha, hl', he⟩ := List.exists_of_eraseP (p := fun p => p.myClient.isNone) hp hnone
      have hdrop : ¬ a.myClient.isSome = true := by simpa using ha
      rw [he, hl', List.filter_append, List.filter_append,
        List.filter_cons_of_neg (p := fun p : PeerInfo => p.myClient.isSome) hdrop]
    · rename_i hany
      refine (List.filter_eq_self.mpr fun p hp => ?_).symm
      have hp' : ¬ p.myClient.isNone = true := fun h => hany (List.any_eq_true.mpr ⟨p, hp, h⟩)
      rw [Option.isSome_iff_ne_none]
      simpa using hp'

theorem clients_destroyAll (ds : List ClientId) : ∀ (w : NodeWorld) (d : ClientId),
    (w.clients d).Quiet ((ds.foldl (fun w d => w.modify d destroy) w).clients d) ∧
      (ds.foldl (fun w d => w.modify d destroy) w).next = w.next ∧
      (ds.foldl (fun w d => w.modify d destroy) w).net = w.net ∧
      (ds.foldl (fun w d => w.modify d destroy) w).app = w.app := by
  induction ds with
  | nil => intro w d; exact ⟨.silent rfl, rfl, rfl, rfl⟩
  | cons e ds ih =>
    intro w d
    obtain ⟨hq, hn, hl, ha⟩ := ih (w.modify e destroy) d
    have hd : (w.clients d).Quiet ((w.modify e destroy).clients d) := by
      rw [World.clients_modify]
      split
      · unfold destroy
        split
        · exact (Client.Quiet.silent rfl).trans (.log rfl _)
        · exact .log rfl _
      · exact .silent rfl
    exact ⟨hd.trans hq, hn, hl, ha⟩

/-- **What `connectionClosed` leaves**: the entries of other connections, and every client
    as it was but for its machinery. -/
theorem connectionClosed_spec (c : ClientId) (w : NodeWorld) :
    (∀ d, (w.clients d).Quiet ((connectionClosed c w).clients d)) ∧
      (connectionClosed c w).next = w.next ∧ (connectionClosed c w).net = w.net ∧
      (connectionClosed c w).app = { w.app with myPeers := w.app.myPeers.filter (stays w c) } := by
  have hall := clients_destroyAll (released w c (w.clients c).myPeerAddr).dedup w
  have hpeers : eraseDisconnected
      (w.app.myPeers.map (PeerInfo.reset w c (w.clients c).myPeerAddr)).length
      (w.app.myPeers.map (PeerInfo.reset w c (w.clients c).myPeerAddr)) =
        w.app.myPeers.filter (stays w c) := by
    rw [eraseDisconnected_eq _ le_rfl]
    induction w.app.myPeers with
    | nil => rfl
    | cons p ps ih =>
      rw [List.map_cons, List.filter_cons, List.filter_cons, ih]
      cases hp : p.myClient with
      | none => simp [PeerInfo.reset, stays, hp]
      | some d =>
        by_cases hd : d = c ∨ (w.clients d).myPeerAddr = (w.clients c).myPeerAddr
        · simp [PeerInfo.reset, stays, hp, hd]
        · simp [PeerInfo.reset, stays, hp, hd]
  refine ⟨fun d => (hall d).1, (hall 0).2.1, (hall 0).2.2.1, ?_⟩
  unfold connectionClosed
  dsimp only
  rw [hpeers, (hall 0).2.2.2]

@[simp] theorem next_connectionClosed (c : ClientId) (w : NodeWorld) :
    (connectionClosed c w).next = w.next := (connectionClosed_spec c w).2.1

/-! ## The answer of `isPeerConnected` -/

theorem isPeerConnected_iff {w : NodeWorld} {a : Str} {out : Bool} :
    isPeerConnected w a out = true ↔
      ∃ p ∈ w.app.myPeers, p.myOutFlag = out ∧ PeerInfo.matches w a p = true := by
  simp [isPeerConnected]

/-- Whether an entry answers to an address is up to its client alone. -/
theorem PeerInfo.matches_congr {w w' : NodeWorld} {p : PeerInfo}
    (h : ∀ d, p.myClient = some d → w'.clients d = w.clients d) (a : Str) :
    PeerInfo.matches w' a p = PeerInfo.matches w a p := by
  unfold PeerInfo.matches
  cases hd : p.myClient with
  | none => rfl
  | some d =>
    dsimp only
    rw [h d hd]

/-- What `getConnectedPeers` collects of an entry. -/
theorem connectedCanon_eq_some {uv : Uv} {w : NodeWorld} {p : PeerInfo} {a : Str}
    (h : connectedCanon uv w p = some a) : ∃ c, p.myClient = some c ∧
      isConnected uv c (w.clients c) = true ∧ (w.clients c).myCanonPeerAddr = a ∧ a ≠ [] := by
  unfold connectedCanon at h
  cases hc : p.myClient with
  | none => rw [hc] at h; cases h
  | some c =>
    rw [hc] at h
    dsimp only at h
    split at h
    · rename_i hconn
      obtain rfl : _ = a := Option.some.inj h
      exact ⟨c, rfl, hconn.1, rfl, List.length_pos_iff.mp hconn.2⟩
    · cases h

/-! ## Frame facts -/

@[simp] theorem app_connect (uv : Uv) (c : ClientId) (w : NodeWorld) :
    (connect uv c w).1.app = w.app := by
  rcases connect_cases uv c w with ⟨-, heq⟩ | ⟨-, res, heq⟩
  · rw [heq]
  · rw [heq, World.app_modify]

@[simp] theorem next_connect (uv : Uv) (c : ClientId) (w : NodeWorld) :
    (connect uv c w).1.next = w.next := by
  rcases connect_cases uv c w with ⟨-, heq⟩ | ⟨-, res, heq⟩
  · rw [heq]
  · rw [heq, World.next_modify]

theorem clients_connect_ne (uv : Uv) {c d : ClientId} (hd : d ≠ c) (w : NodeWorld) :
    (connect uv c w).1.clients d = w.clients d := by
  rcases connect_cases uv c w with ⟨-, heq⟩ | ⟨-, res, heq⟩
  · rw [heq]
  · rw [heq, World.clients_modify_ne _ _ hd]

theorem quiet_connect (uv : Uv) (c : ClientId) (w : NodeWorld) :
    (w.clients c).Quiet ((connect uv c w).1.clients c) := by
  rcases clients_connect uv c w with ⟨-, heq⟩ | ⟨-, b, heq⟩
  · rw [heq]
    exact .silent rfl
  · rw [heq]
    exact (Client.Quiet.log (a := .connectCall) rfl _).trans
      ((Client.Quiet.setState .connecting _).trans (.silent rfl))

/-! ## One round of the connection pass -/

/-- A new outgoing peer, in the list, before it is told to connect. -/
def appendOut (host : Str) (port : Int32) (w : NodeWorld) : NodeWorld :=
  { w.create (PeerClientOut.new host port) with
    app := { w.app with myPeers := w.app.myPeers ++ [⟨some w.next, true⟩] } }

/-- What the body of the loop in `tryOutConnections` can do with a candidate. -/
inductive Round (uv : Uv) (w : NodeWorld) (key : Str) : NodeWorld → Prop where
  /-- no such candidate, its budget is used up, or it is connected -/
  | skipped (h : ∀ i, w.app.myPeerCands.find? key = some i → i.InBudget →
      isPeerConnected w key true = true) : Round uv w key w
  /-- the candidate is the node itself -/
  | self (i : PeerCandidateInfo) (hfind : w.app.myPeerCands.find? key = some i)
      (hbudget : i.InBudget) (hfree : isPeerConnected w key true = false) :
      Round uv w key
        (modifyCand key PeerCandidateInfo.connected (modifyCand key PeerCandidateInfo.tried w))
  /-- the attempt was accepted -/
  | attempted (i : PeerCandidateInfo) (hfind : w.app.myPeerCands.find? key = some i)
      (hbudget : i.InBudget) (hfree : isPeerConnected w key true = false) :
      Round uv w key (modifyCand key PeerCandidateInfo.connected (connect uv w.next
        (appendOut i.myHost i.myPort (modifyCand key PeerCandidateInfo.tried w))).1)
  /-- the attempt failed at once -/
  | failed (i : PeerCandidateInfo) (hfind : w.app.myPeerCands.find? key = some i)
      (hbudget : i.InBudget) (hfree : isPeerConnected w key true = false) :
      Round uv w key (connect uv w.next
        (appendOut i.myHost i.myPort (modifyCand key PeerCandidateInfo.tried w))).1

/-- **What one round does**, said once; everything about the pass follows from it. -/
theorem round_tryCandidate (uv : Uv) (w : NodeWorld) (key : Str) :
    Round uv w key (tryCandidate uv w key) := by
  unfold tryCandidate
  cases hfind : w.app.myPeerCands.find? key with
  | none => exact .skipped fun i hi => nomatch hfind.symm.trans hi
  | some i =>
    dsimp only
    split
    · rename_i hbudget
      split
      · rename_i hconn
        exact .skipped fun _ _ _ => hconn
      · rename_i hconn
        have hfree := Bool.eq_false_iff.mpr hconn
        unfold tryOutConnection
        split
        · exact .self i hfind hbudget hfree
        · split
          · exact .attempted i hfind hbudget hfree
          · exact .failed i hfind hbudget hfree
    · rename_i hbudget
      refine .skipped fun j hj hin => absurd ?_ hbudget
      rw [hfind, Option.some.injEq] at hj
      exact hj ▸ hin

theorem name_tryCandidate (uv : Uv) (w : NodeWorld) (key : Str) :
    (tryCandidate uv w key).app.myName = w.app.myName := by
  have hround := round_tryCandidate uv w key
  generalize tryCandidate uv w key = w' at hround ⊢
  cases hround with
  | skipped => rfl
  | self => rfl
  | attempted i =>
    show (connect uv w.next (appendOut i.myHost i.myPort _)).1.app.myName = w.app.myName
    rw [app_connect]
    rfl
  | failed =>
    rw [app_connect]
    rfl

theorem next_tryCandidate (uv : Uv) (w : NodeWorld) (key : Str) :
    w.next ≤ (tryCandidate uv w key).next := by
  have hround := round_tryCandidate uv w key
  generalize tryCandidate uv w key = w' at hround ⊢
  cases hround with
  | skipped => exact le_rfl
  | self => exact le_rfl
  | attempted i =>
    show w.next ≤ (connect uv w.next (appendOut i.myHost i.myPort _)).1.next
    rw [next_connect]
    exact Nat.le_succ _
  | failed =>
    rw [next_connect]
    exact Nat.le_succ _

/-- A round leaves the clients there are as they are. -/
theorem clients_tryCandidate (uv : Uv) {w : NodeWorld} {c : ClientId} (hc : c < w.next)
    (key : Str) : (tryCandidate uv w key).clients c = w.clients c := by
  have hne := Nat.ne_of_lt hc
  have hround := round_tryCandidate uv w key
  generalize tryCandidate uv w key = w' at hround ⊢
  cases hround with
  | skipped => rfl
  | self => rfl
  | attempted => exact (clients_connect_ne uv hne _).trans (World.clients_create_ne w _ hne)
  | failed => exact (clients_connect_ne uv hne _).trans (World.clients_create_ne w _ hne)

/-- … and the one it may create is an outgoing peer for the candidate, told to connect. -/
theorem tryCandidate_new (uv : Uv) {w : NodeWorld} {c : ClientId} {key : Str}
    (hc : ¬ c < w.next) (hc' : c < (tryCandidate uv w key).next) :
    ∃ (i : PeerCandidateInfo) (w' : NodeWorld),
      w'.clients c = PeerClientOut.new i.myHost i.myPort ∧
      (tryCandidate uv w key).clients c = (connect uv c w').1.clients c := by
  have hnext : ∀ w' : NodeWorld, w'.next = w.next + 1 → c < (connect uv w.next w').1.next →
      c = w.next := by
    intro w' hn hlt
    rw [next_connect, hn] at hlt
    exact Nat.le_antisymm (Nat.lt_succ_iff.mp hlt) (Nat.le_of_not_lt hc)
  have hround := round_tryCandidate uv w key
  generalize tryCandidate uv w key = w' at hround hc' ⊢
  cases hround with
  | skipped => exact absurd hc' hc
  | self => exact absurd hc' hc
  | attempted i =>
    obtain rfl := hnext (appendOut i.myHost i.myPort (modifyCand key _ w)) rfl hc'
    refine ⟨i, appendOut i.myHost i.myPort (modifyCand key PeerCandidateInfo.tried w), ?_, rfl⟩
    exact World.clients_create_next w _
  | failed i =>
    obtain rfl := hnext (appendOut i.myHost i.myPort (modifyCand key _ w)) rfl hc'
    refine ⟨i, appendOut i.myHost i.myPort (modifyCand key PeerCandidateInfo.tried w), ?_, rfl⟩
    exact World.clients_create_next w _

/-! ## The loops of the node -/

/-- The rule of the connection pass: what each of its rounds preserves. -/
theorem rounds_preserve {uv : Uv} {I : NodeWorld → Prop} : ∀ {keys : List Str},
    (∀ key ∈ keys, ∀ {w : NodeWorld}, I w → I (tryCandidate uv w key)) →
    ∀ {w : NodeWorld}, I w → I (keys.foldl (tryCandidate uv) w) := by
  intro keys
  induction keys with
  | nil => intro _ w h; exact h
  | cons key keys ih =>
    intro hround w h
    apply ih fun key' hkey' => hround key' (List.mem_cons_of_mem key hkey')
    exact hround key (by simp) h

/-- The rule of the gossip loop: what each of its messages preserves. -/
theorem gossip_preserves {uv : Uv} {c : ClientId} {I : NodeWorld → Prop} :
    ∀ {es : List Endpoint}, (∀ e ∈ es, ∀ {w : NodeWorld}, I w →
      I (sendMessage uv c (.otherPeer e.myHost e.myPort) w).1) →
    ∀ {w : NodeWorld}, I w → I (sendOtherPeersLoop uv c es w) := by
  intro es
  induction es with
  | nil => intro _ w h; exact h
  | cons e es ih =>
    intro hsend w h
    have hrest : ∀ {w : NodeWorld}, I w → I (sendOtherPeersLoop uv c es w) :=
      ih fun e' he' => hsend e' (List.mem_cons_of_mem e he')
    rw [sendOtherPeersLoop]
    split
    · exact h
    · split
      · exact hrest (hsend e (by simp) h)
      · exact hrest h

/-- The rule of the `-peer` candidates. -/
theorem extraPeers_preserve {I : NodeApp → Prop} : ∀ {extraPeers : List Str},
    (∀ p ∈ extraPeers, ∀ {a : NodeApp}, I a → I (addExtraPeer a p)) →
    ∀ {a : NodeApp}, I a → I (extraPeers.foldl addExtraPeer a) := by
  intro extraPeers
  induction extraPeers with
  | nil => intro _ a h; exact h
  | cons p ps ih =>
    intro hextra a h
    apply ih fun q hq => hextra q (List.mem_cons_of_mem p hq)
    exact hextra p (by simp) h

/-- The rule of the candidates a node starts with. -/
theorem startCandidates_preserve {I : NodeApp → Prop} {extraPeers : List Str}
    (hlocal : ∀ {a : NodeApp} (port : Int32), I a → I (a.addOutPeerCandidate textLocalhost port 1))
    (hextra : ∀ p ∈ extraPeers, ∀ {a : NodeApp}, I a → I (addExtraPeer a p))
    {a : NodeApp} (h : I a) : I (a.addStartCandidates extraPeers) :=
  extraPeers_preserve (fun p hp => hextra p (List.mem_of_mem_filter hp)) (hlocal 5001 (hlocal 5000 h))

/-- The candidate a message makes the node add, if it makes it add one: that of an `OPEER`, or
    the canonical address of an incoming peer that shakes hands. -/
def addedBy (c : ClientId) (m : Message) (w : NodeWorld) : Option (Str × Int32) :=
  match m with
  | .otherPeer host port => some (host, port)
  | .handshake myVersion _ myAddr =>
      let peerEp := (w.clients c).myPeerAddr
      if myVersion = textV01 ∧ isPeerConnected w peerEp false = true ∧ myAddr.take 1 = [':'] then
        match stoi (myAddr.drop 1) with
        | .error _ => none
        | .ok canonPort =>
            let canonHost := (Endpoint.ofString peerEp).myHost
            if endpointText canonHost canonPort ≠ peerEp then some (canonHost, canonPort) else none
      else none
  | _ => none

/-- What a message can do to a node: close or write on the connection it came on, learn that
    connection's canonical address, add the candidate it makes the node add, and try the
    candidates. `B` is what is known until a candidate is added, `I` what is known after. -/
theorem messageReceived_adds {uv : Uv} {c : ClientId} {B I : NodeWorld → Prop} {m : Message}
    {w : NodeWorld}
    (hclose : B w → B (close c w).1)
    (hsend : ∀ (m : Message), B w → B (sendMessage uv c m w).1)
    (hcanon : ∀ {w : NodeWorld} (a : Str), B w →
      B (w.modify c fun k => { k with myCanonPeerAddr := a }))
    (hnone : ∀ {w : NodeWorld}, B w → I w)
    (hcand : ∀ {w' : NodeWorld} (host : Str) (port : Int32), addedBy c m w = some (host, port) →
      B w' → I { w' with app := w'.app.addOutPeerCandidate host port 1 })
    (htry : ∀ {w : NodeWorld} (key : Str), I w → I (tryCandidate uv w key))
    (hgossips : ∀ {w : NodeWorld} (m : Message), I w → I (sendMessage uv c m w).1)
    (h : B w) : I (messageReceived uv c m w).world := by
  have hpass : ∀ {w : NodeWorld}, I w → I (tryOutConnections uv w) := fun h =>
    rounds_preserve (fun key _ _ h => htry key h) h
  have hgossip : ∀ {w : NodeWorld}, I w → I (sendOtherPeers uv c w) := fun h =>
    gossip_preserves (fun _ _ _ h => hgossips _ h) h
  cases m with
  | handshake myVersion yourAddr myAddr =>
    unfold messageReceived
    dsimp only
    split
    · exact hnone (hclose h)
    · rename_i hversion
      split
      · exact hnone h
      · rename_i hconn
        have hresp := hsend (.handshakeResponse textV01 w.app.myName (w.clients c).myPeerAddr) h
        split
        · exact hgossip (hnone hresp)
        · rename_i hcolon
          cases hport : stoi (myAddr.drop 1) with
          | error e => exact hnone hresp
          | ok canonPort =>
            apply hgossip
            split
            · rename_i hcanonEp
              refine hpass (hcand _ canonPort ?_ (hcanon _ hresp))
              unfold addedBy
              dsimp only
              rw [if_pos ⟨not_not.mp hversion, Bool.not_eq_false _ ▸ hconn, not_not.mp hcolon⟩,
                hport]
              exact if_pos hcanonEp
            · exact hnone hresp
  | handshakeResponse myVersion myAddr yourAddr => exact hnone h
  | ping text => exact hnone (hsend _ h)
  | pingResponse text => exact hnone h
  | otherPeer host port => exact hpass (hcand host port rfl h)

/-- A property that survives any message. -/
theorem messageReceived_preserves {uv : Uv} {c : ClientId} {I : NodeWorld → Prop}
    (hclose : ∀ {w : NodeWorld}, I w → I (close c w).1)
    (hsend : ∀ {w : NodeWorld} (m : Message), I w → I (sendMessage uv c m w).1)
    (hcanon : ∀ {w : NodeWorld} (a : Str), I w →
      I (w.modify c fun k => { k with myCanonPeerAddr := a }))
    (hcand : ∀ {w : NodeWorld} (host : Str) (port : Int32), I w →
      I { w with app := w.app.addOutPeerCandidate host port 1 })
    (htry : ∀ {w : NodeWorld} (key : Str), I w → I (tryCandidate uv w key))
    (m : Message) {w : NodeWorld} (h : I w) : I (messageReceived uv c m w).world :=
  messageReceived_adds (B := I) hclose (fun m => hsend m) hcanon id
    (fun host port _ => hcand host port) htry hsend h

theorem clients_tryOutConnections (uv : Uv) {w : NodeWorld} {c : ClientId} (hc : c < w.next) :
    (tryOutConnections uv w).clients c = w.clients c := by
  have hkept : c < (tryOutConnections uv w).next ∧
      (tryOutConnections uv w).clients c = w.clients c :=
    rounds_preserve (I := fun w' => c < w'.next ∧ w'.clients c = w.clients c)
      (fun key _ w' h => ⟨Nat.lt_of_lt_of_le h.1 (next_tryCandidate uv w' key),
        (clients_tryCandidate uv h.1 key).trans h.2⟩) ⟨hc, rfl⟩
  exact hkept.2

/-- The node has a client, or at least its name. -/
def Started (w : NodeWorld) : Prop :=
  0 < w.next ∨ ∃ port : Int32, w.app.myName = ':' :: stdToString port.toInt

theorem Started.tryCandidate {uv : Uv} {w : NodeWorld} {key : Str} (h : Started w) :
    Started (tryCandidate uv w key) := by
  rcases h with h | ⟨port, h⟩
  · exact Or.inl (Nat.lt_of_lt_of_le h (next_tryCandidate uv w key))
  · exact Or.inr ⟨port, (name_tryCandidate uv w key).trans h⟩

end NodeApp

/-! ## Handlers -/

/-- A property of a node that its handlers cannot break, connection by connection. -/
structure RobustNode (uv : Uv) (I : NodeWorld → Prop) : Prop where
  quiet : ∀ {w : NodeWorld} {c : ClientId} {f : Client → Client}, c < w.next →
    (∀ k : Client, k.Quiet (f k)) → I w → I (w.modify c f)
  connectionClosed : ∀ {w : NodeWorld} {c : ClientId}, c < w.next → I w →
    I (NodeApp.connectionClosed c w)
  greets : ∀ {w : NodeWorld} {c : ClientId} {m : Message}, c < w.next → Greets c w m → I w →
    I (w.modify c (·.log (.sendMessage m)))
  handshakeResponse : ∀ {w : NodeWorld} {c : ClientId}, c < w.next → I w →
    I (w.modify c (·.log (.sendMessage
      (.handshakeResponse textV01 w.app.myName (w.clients c).myPeerAddr))))
  pingResponse : ∀ {w : NodeWorld} {c : ClientId} {text : Str}, c < w.next → IsWord text → I w →
    I (w.modify c (·.log (.sendMessage
      (.pingResponse (textRespFrom ++ w.app.myName ++ textTo ++ text)))))
  /-- an endpoint from a list of connected peers taken before -/
  otherPeer : ∀ {w₀ w : NodeWorld} {c : ClientId} {e : Endpoint}, c < w.next → I w₀ →
    e ∈ NodeApp.getConnectedPeers uv w₀ → I w →
    I (w.modify c (·.log (.sendMessage (.otherPeer e.myHost e.myPort))))
  /-- the canonical address of a peer that shook hands, from its address read before -/
  canonical : ∀ {w₀ w : NodeWorld} {c : ClientId} (port : Int32), c < w₀.next → c < w.next →
    I w₀ →
    NodeApp.isPeerConnected w₀ (w₀.clients c).myPeerAddr false = true → I w →
    I (w.modify c fun k => { k with
      myCanonPeerAddr := endpointText (Endpoint.ofString (w₀.clients c).myPeerAddr).myHost port })
  canonicalCandidate : ∀ {w₀ w : NodeWorld} {c : ClientId} (port : Int32), c < w₀.next → I w₀ →
    NodeApp.isPeerConnected w₀ (w₀.clients c).myPeerAddr false = true → I w →
    I { w with
      app := w.app.addOutPeerCandidate (Endpoint.ofString (w₀.clients c).myPeerAddr).myHost port 1 }
  candidate : ∀ {w : NodeWorld} {host : Str} {port : Int32}, IsWord host → I w →
    I { w with app := w.app.addOutPeerCandidate host port 1 }
  tryCandidate : ∀ {w : NodeWorld} {key : Str}, NodeApp.Started w → I w →
    I (NodeApp.tryCandidate uv w key)

namespace RobustNode

variable {uv : Uv} {I : NodeWorld → Prop} (hI : RobustNode uv I) {c : ClientId} {w : NodeWorld}

include hI

/-- For one of its connections, existence goes along. -/
theorem robust (c : ClientId) : Robust c (fun w : NodeWorld => c < w.next ∧ I w) where
  quiet hf h := ⟨h.1, hI.quiet h.1 hf h.2⟩
  connectionClosed h :=
    ⟨by rw [show (BaseApp.connectionClosed c _ : NodeWorld).next = _ from
          NodeApp.next_connectionClosed c _]; exact h.1, hI.connectionClosed h.1 h.2⟩
  greets hm h := ⟨h.1, hI.greets h.1 hm h.2⟩

theorem tryOutConnections (hs : NodeApp.Started w) (h : I w) :
    I (NodeApp.tryOutConnections uv w) :=
  (NodeApp.rounds_preserve (I := fun w => NodeApp.Started w ∧ I w)
    (fun _ _ _ h => ⟨h.1.tryCandidate, hI.tryCandidate h.1 h.2⟩) ⟨hs, h⟩).2

omit hI in
theorem next_tryOutConnections (uv : Uv) (w : NodeWorld) :
    w.next ≤ (NodeApp.tryOutConnections uv w).next :=
  NodeApp.rounds_preserve (I := fun w' => w.next ≤ w'.next)
    (fun key _ w' h => h.trans (NodeApp.next_tryCandidate uv w' key)) le_rfl

omit hI in
theorem next_learnCanonical (uv : Uv) (c : ClientId) (host : Str) (port : Int32)
    (w : NodeWorld) : w.next ≤ (NodeApp.learnCanonical uv c host port w).next := by
  unfold NodeApp.learnCanonical
  refine Nat.le_trans ?_ (next_tryOutConnections uv _)
  exact le_rfl

/-- The gossip: the list is taken first, then the loop runs over it. -/
theorem sendOtherPeers (h : c < w.next ∧ I w) :
    c < (NodeApp.sendOtherPeers uv c w).next ∧ I (NodeApp.sendOtherPeers uv c w) :=
  NodeApp.gossip_preserves (I := fun w' => c < w'.next ∧ I w')
    (fun _ he _ h' => (hI.robust c).sendMessage uv ⟨h'.1, hI.otherPeer h'.1 h.2 he h'.2⟩) h

theorem robustProcess (c : ClientId) :
    RobustProcess uv c (fun w : NodeWorld => c < w.next ∧ I w) where
  toRobust := hI.robust c
  sendOtherPeers h := hI.sendOtherPeers h

/-- **The handler of messages preserves it**, whatever the message. -/
theorem messageReceived {m : Message} (hwf : m.WF) (h : c < w.next ∧ I w) :
    c < (NodeApp.messageReceived uv c m w).world.next ∧
      I (NodeApp.messageReceived uv c m w).world := by
  cases m with
  | handshake myVersion yourAddr myAddr =>
    unfold NodeApp.messageReceived
    dsimp only
    split
    · exact (hI.robust c).close h
    · split
      · exact h
      · rename_i hconn
        rw [Bool.not_eq_false] at hconn
        have hresp := (hI.robust c).sendMessage uv ⟨h.1, hI.handshakeResponse h.1 h.2⟩
        split
        · exact hI.sendOtherPeers hresp
        · cases stoi (myAddr.drop 1) with
          | error e => exact hresp
          | ok canonPort =>
            apply hI.sendOtherPeers
            split
            · have hcanon := hI.canonical canonPort h.1 hresp.1 h.2 hconn hresp.2
              have hcand := hI.canonicalCandidate canonPort h.1 h.2 hconn hcanon
              have hnext : 0 < _ := Nat.lt_of_le_of_lt (Nat.zero_le c) hresp.1
              exact ⟨Nat.lt_of_lt_of_le hresp.1 (next_learnCanonical uv c _ _ _),
                hI.tryOutConnections (Or.inl hnext) hcand⟩
            · exact hresp
  | handshakeResponse myVersion myAddr yourAddr => exact h
  | ping text =>
    have htext : IsWord text := hwf text (by simp [Message.fields])
    exact (hI.robust c).sendMessage uv ⟨h.1, hI.pingResponse h.1 htext h.2⟩
  | pingResponse text => exact h
  | otherPeer host port =>
    have hhost : IsWord host := hwf host (by simp [Message.fields])
    have hnext : 0 < w.next := Nat.lt_of_le_of_lt (Nat.zero_le c) h.1
    exact ⟨Nat.lt_of_lt_of_le h.1 (next_tryOutConnections uv
        { w with app := w.app.addOutPeerCandidate host port 1 }),
      hI.tryOutConnections (Or.inl hnext) (hI.candidate hhost h.2)⟩

end RobustNode

/-! ## Events -/

/-- A property of a node that no event of its environment breaks, as long as the
    parameters it is started with satisfy `P`. -/
structure NodeInvariant (uv : Uv) (P : AppParams → Prop) (I : NodeWorld → Prop) : Prop
    extends RobustNode uv I where
  connected : ∀ {w : NodeWorld} {c : ClientId}, c < w.next → I w →
    (getRemoteAddressHostPort uv (uv.getpeername c (w.clients c).tcp.handle)).1 ≠
      (w.clients c).myHost →
    I (w.modify c fun k =>
      { k with myCanonPeerAddr :=
          (getRemoteAddressHostPort uv (uv.getpeername c (w.clients c).tcp.handle)).1 ++
            ':' :: stdToString k.myPort.toInt })
  buffer : ∀ {w : NodeWorld} {c : ClientId} (f : Client → Str), c < w.next → I w →
    I (w.modify c fun k => k.setReceiveBuffer (f k))
  handed : ∀ {w : NodeWorld} {c : ClientId} {m : Message}, c < w.next → m.WF → I w →
    I (w.modify c (Client.handOver m))
  accepted : ∀ {w : NodeWorld}, w.net.listening = true → I w →
    I (NodeApp.inConnectionReceived w.next
      (w.create (NetClientIn.new (getRemoteAddress uv (uv.getpeername w.next 1)))))
  named : ∀ {w : NodeWorld} (port : Int32) (n : NetHandler), I w →
    I { w with net := n, app := { w.app with myName := ':' :: stdToString port.toInt } }
  net : ∀ {w : NodeWorld} {n : NetHandler}, n.listening = w.net.listening → I w →
    I { w with net := n }
  terminated : ∀ {w : NodeWorld} (t : Option StdException), I w → I { w with terminated := t }
  started : ∀ {w : NodeWorld} {params : AppParams}, P params → I w →
    I { w with app := w.app.addStartCandidates params.extraPeers }

/-- What an event has to satisfy for a condition on start parameters. -/
def NodeEvent.StartsWith (P : AppParams → Prop) : NodeEvent → Prop
  | .start params => P params
  | _ => True

namespace NodeInvariant

variable {uv : Uv} {P : AppParams → Prop} {I : NodeWorld → Prop}
  (hI : NodeInvariant uv P I) {w : NodeWorld}

include hI

theorem robustApp (c : ClientId) :
    RobustApp uv c (fun w : NodeWorld => c < w.next ∧ I w) where
  toRobustProcess := hI.robustProcess c
  connected h hhost := ⟨h.1, hI.connected h.1 h.2 hhost⟩
  buffer f h := ⟨h.1, hI.buffer f h.1 h.2⟩
  message hline h :=
    hI.messageReceived (wf_of_parseLine hline) ⟨h.1, hI.handed h.1 (wf_of_parseLine hline) h.2⟩

theorem listenStarted (port : Int32) (n : NetHandler) (h : I w) :
    I (NodeApp.listenStarted uv port { w with net := n }) :=
  hI.tryOutConnections (Or.inr ⟨port, rfl⟩) (hI.named (w := w) port n h)

theorem doListenFrom : ∀ (n : Nat) (port : Int32) {w : NodeWorld}, I w →
    I (doListenFrom uv n port w).1 := by
  intro n
  induction n with
  | zero => intro port w h; exact h
  | succ n ih =>
    intro port w h
    rw [TcpUv.doListenFrom]
    split
    · exact hI.listenStarted port _ h
    · exact ih (port + 1) h

theorem start {params : AppParams} (hp : P params) (h : I w) : I (NodeApp.start uv params w) := by
  have hlisten := hI.doListenFrom (max (min params.listenPortRange.toInt 10) 1).toNat
    params.listenPort (hI.started hp h)
  unfold NodeApp.start startWithListen
  dsimp only
  split
  · exact hlisten
  · exact hI.net rfl hlisten

theorem newConnection (status acceptRes : Int) (hl : w.net.listening = true) (h : I w) :
    I (onNewConnection uv status acceptRes w) := by
  unfold onNewConnection
  split
  · exact h
  · split
    · exact h
    · exact ((hI.robust w.next).doRead uv ⟨Nat.lt_succ_self w.next, hI.accepted hl h⟩).2

/-- One event. -/
theorem step {e : NodeEvent} (ha : (nodeSystem uv).allowed w e) (he : e.StartsWith P) (h : I w) :
    I (nodeStep uv w e) := by
  cases e with
  | start params => exact hI.start he h
  | listenStarted port => exact hI.listenStarted port w.net h
  | newConnection status acceptRes => exact hI.newConnection status acceptRes ha.2 h
  | client c cb =>
    have hcb := ((hI.robustApp c).callback cb ⟨ha.2.1, h⟩).2
    show I (callback uv c w cb).settle
    cases ho : callback uv c w cb with
    | returns w' => rw [ho] at hcb; exact hcb
    | throws e w' => rw [ho] at hcb; exact hI.terminated _ hcb

/-- **It holds after every run** whose start events satisfy `P`. -/
theorem run {es : List NodeEvent} (hv : (nodeSystem uv).Valid w es)
    (hp : ∀ e ∈ es, e.StartsWith P) (h : I w) : I ((nodeSystem uv).run w es) := by
  induction es generalizing w with
  | nil => exact h
  | cons e es ih =>
    exact ih hv.2 (fun e' he' => hp e' (List.mem_cons_of_mem e he'))
      (hI.step hv.1 (hp e (by simp)) h)

end NodeInvariant

end TcpUv
