import TcpUv.Proof.ServerRules
import TcpUv.Proof.NodeHandlers

/-!
# The store of the server

`myClients` is keyed by an address text that is worked out when a connection is accepted,
and searched by identity when it is closed. Whatever the addresses, closing takes the
closed client out and no other; accepting puts the newcomer in and drops the client that
had its address, if one had. So the store holds the live clients as long as no two of them
have the same text, and no longer (`holdsLive_iff`).
-/

set_option autoImplicit false

namespace TcpUv

open Lib

/-- The store holds the clients that were accepted and whose `onClose` has not run. -/
def HoldsLive (w : World ServerApp) : Prop :=
  ∀ c, c ∈ w.app.held ↔ c < w.next ∧ .connectionClosed ∉ (w.clients c).acts

/-- A connection that is accepted comes from an address the store has no client under. -/
def FreshAddress (uv : Uv) (s : ServerRun) : ServerEvent → Prop
  | .newConnection status acceptRes => 0 ≤ status → 0 ≤ acceptRes →
      s.world.app.myClients.find? (getRemoteAddress uv (uv.getpeername s.world.next 1)) = none
  | _ => True

/-- No callback but the close callback runs `onClose`. -/
theorem Client.closed_serve (uv : Uv) (c : ClientId) (name : Str) (cb : Callback) (k : Client) :
    .connectionClosed ∈ (k.serve uv c name cb).acts ↔ .connectionClosed ∈ k.acts := by
  refine Client.serve_preserves uv c name
    (J := fun k' => .connectionClosed ∈ k'.acts ↔ .connectionClosed ∈ k.acts)
    (fun hi h => (hi.mem_acts rfl).trans h) (fun _ h => h) cb (fun {k'} m _ h => ?_) Iff.rfl
  have hover : .connectionClosed ∈ (k'.handOver m).acts ↔ .connectionClosed ∈ k'.acts := by
    simp [Client.handOver, Client.setState, Client.log]
  rcases ServerApp.react_cases uv c name m (k'.handOver m) with hi | ⟨m', hs⟩
  · exact ((hi.mem_acts rfl).trans hover).trans h
  · exact ((hs.mem_acts (Or.inl rfl)).trans hover).trans h

theorem Client.closed_retire (held : Bool) (k : Client) :
    .connectionClosed ∈ (k.retire held).acts := by
  cases held <;> simp [Client.retire, Client.setState, Client.log]

theorem ServerApp.closed_newcomer (uv : Uv) (c : ClientId) :
    .connectionClosed ∉ ((newcomer uv c).readNow uv c).acts := by
  rw [(idle_newcomer uv c).mem_acts rfl]
  simp [newcomer, NetClientIn.new, Client.setState, Client.setUvStream]

section

variable {uv : Uv} {s : ServerRun}

/-- Accepting a connection drops nobody exactly if its address is new. -/
theorem holdsLive_accepted (h : ServerSane s.world) (hl : HoldsLive s.world) {status acceptRes : Int}
    (hs : ¬ status < 0) (hr : ¬ acceptRes < 0) :
    HoldsLive (onNewConnection uv status acceptRes s.world) ↔
      s.world.app.myClients.find? (getRemoteAddress uv (uv.getpeername s.world.next 1)) = none := by
  obtain ⟨hclients, hentries, hnext, -⟩ := onNewConnection_accepted uv h.toServerStore hs hr
  constructor
  · intro hl'
    cases hfind : s.world.app.myClients.find? (getRemoteAddress uv (uv.getpeername s.world.next 1)) with
    | none => rfl
    | some d =>
      -- the client that had the address is alive, and not in the store any more
      have hd := (SortedMap.mem_entries_iff _ _ _).mpr hfind
      have hlt : d < s.world.next := h.known _ hd
      have hlive := (hl d).mp (ServerApp.mem_held.mpr ⟨_, hd⟩)
      have hheld' : d ∈ (onNewConnection uv status acceptRes s.world).app.held := by
        refine (hl' d).mpr ⟨hnext ▸ Nat.lt_succ_of_lt hlt, ?_⟩
        rw [hclients, if_neg (Nat.ne_of_lt hlt), if_pos (by exact hd)]
        simpa [Client.log] using hlive.2
      rcases (ServerApp.held_accepted h.toServerStore hentries).mp hheld' with hself | ⟨-, hne⟩
      · exact absurd hself (Nat.ne_of_lt hlt)
      · exact absurd (h.addr _ hd) hne
  · intro hfresh c
    have hnobody : ∀ d, ((ServerApp.newcomer uv s.world.next).myPeerAddr, d) ∉
        s.world.app.myClients.entries := by
      intro d hd
      have hsome := (SortedMap.mem_entries_iff _ _ _).mp hd
      rw [show s.world.app.myClients.find? (ServerApp.newcomer uv s.world.next).myPeerAddr = none
        from hfresh] at hsome
      cases hsome
    rw [ServerApp.held_accepted h.toServerStore hentries, hclients, hnext, if_neg (hnobody c)]
    by_cases hc : c = s.world.next
    · rw [if_pos hc, hc]
      exact ⟨fun _ => ⟨Nat.lt_succ_self _, ServerApp.closed_newcomer uv _⟩, fun _ => Or.inl rfl⟩
    · rw [if_neg hc]
      have hkept : c ∈ s.world.app.held →
          (ServerApp.newcomer uv s.world.next).myPeerAddr ≠ (s.world.clients c).myPeerAddr := by
        intro hheld haddr
        obtain ⟨addr, he⟩ := ServerApp.mem_held.mp hheld
        apply hnobody c
        rw [haddr, ← h.addr _ he]
        exact he
      constructor
      · rintro (hself | ⟨hheld, -⟩)
        · exact absurd hself hc
        · exact ⟨Nat.lt_succ_of_lt ((hl c).mp hheld).1, ((hl c).mp hheld).2⟩
      · rintro ⟨hlt, hopen⟩
        have hheld := (hl c).mpr ⟨Nat.lt_of_le_of_ne (Nat.lt_succ_iff.mp hlt) hc, hopen⟩
        exact Or.inr ⟨hheld, hkept hheld⟩

theorem holdsLive_step (h : ServerSane s.world) (hl : HoldsLive s.world) {e : ServerEvent}
    (ha : (serverSystem uv).allowed s e) :
    HoldsLive ((serverSystem uv).step s e).world ↔ FreshAddress uv s e := by
  have hm := serverStep_move h ha
  -- an event that leaves the store and the reports alone
  have hsame : ∀ {w' : World ServerApp}, w'.app.myClients = s.world.app.myClients →
      w'.next = s.world.next →
      (∀ c, .connectionClosed ∈ (w'.clients c).acts ↔
        .connectionClosed ∈ (s.world.clients c).acts) → HoldsLive w' := by
    intro w' hstore hnext hreport c
    rw [ServerApp.held, hstore, hnext, hreport]
    exact hl c
  cases e with
  | newConnection status acceptRes =>
    show HoldsLive (onNewConnection uv status acceptRes s.world) ↔ _
    by_cases hs : status < 0
    · rw [onNewConnection, if_pos hs]
      exact ⟨fun _ hs' => absurd hs (not_lt.mpr hs'), fun _ => hl⟩
    · by_cases hr : acceptRes < 0
      · rw [onNewConnection, if_neg hs, if_pos hr]
        exact ⟨fun _ _ hr' => absurd hr (not_lt.mpr hr'), fun _ => hl⟩
      · rw [holdsLive_accepted h hl hs hr]
        exact ⟨fun hf _ _ => hf, fun hf => hf (not_lt.mp hs) (not_lt.mp hr)⟩
  | client c cb =>
    refine iff_of_true ?_ trivial
    change ServerMove uv s ((serverSystem uv).step s (.client c cb)).world _ at hm
    generalize ((serverSystem uv).step s (.client c cb)).world = w' at hm ⊢
    cases hm with
    | aside hevent => exact absurd rfl (hevent c cb)
    | served _ _ _ hclients happ hnext =>
      refine hsame (congrArg ServerApp.myClients happ) hnext fun d => ?_
      rw [hclients]
      split
      · rename_i hd
        rw [Client.closed_serve, hd]
      · exact Iff.rfl
    | closed _ _ hclients hentries hnext =>
      intro d
      rw [ServerApp.held_closed hentries, hl d, hnext, hclients]
      by_cases hd : d = c
      · rw [if_pos hd]
        exact ⟨fun hboth => absurd hd hboth.2, fun hboth => absurd (Client.closed_retire _ _) hboth.2⟩
      · rw [if_neg hd]
        exact ⟨fun hboth => hboth.1, fun hlive => ⟨hlive, hd⟩⟩
  | _ =>
    refine iff_of_true ?_ trivial
    cases hm with
    | aside _ hclients hstore hnext =>
      refine hsame hstore hnext fun c => ?_
      show .connectionClosed ∈ ((serverStep uv s _).world.clients c).acts ↔ _
      rw [hclients]

end

/-- Run by run: the state is sane at the start of each. -/
theorem holdsLive_along {uv : Uv} : ∀ {es : List ServerEvent} {s : ServerRun}, ServerSane s.world →
    HoldsLive s.world → (serverSystem uv).Valid s es →
    ((serverSystem uv).Along (fun s e => HoldsLive ((serverSystem uv).step s e).world) s es ↔
      (serverSystem uv).Along (FreshAddress uv) s es) := by
  intro es
  induction es with
  | nil => intro s _ _ _; exact Iff.rfl
  | cons e es ih =>
    intro s h hl hv
    have hstep := holdsLive_step h hl hv.1
    constructor
    · rintro ⟨hl', hrest⟩
      exact ⟨hstep.mp hl', (ih (serverSane_step s e h hv.1) hl' hv.2).mp hrest⟩
    · rintro ⟨hfresh, hrest⟩
      have hl' := hstep.mpr hfresh
      exact ⟨hl', (ih (serverSane_step s e h hv.1) hl' hv.2).mpr hrest⟩

/-- **The store holds the live clients** after every event of a run, exactly if no connection
    of the run is accepted from an address the store has a client under. -/
theorem holdsLive_iff {uv : Uv} {es : List ServerEvent}
    (hv : (serverSystem uv).Valid ServerRun.init es) :
    (serverSystem uv).Along (fun s e => HoldsLive ((serverSystem uv).step s e).world)
        ServerRun.init es ↔
      (serverSystem uv).Along (FreshAddress uv) ServerRun.init es := by
  refine holdsLive_along serverSane_init (fun c => ?_) hv
  refine ⟨fun hc => ?_, fun hc => absurd hc.1 (Nat.not_lt_zero c)⟩
  simp [ServerRun.init, World.init, ServerApp.held, SortedMap.empty] at hc

/-- A libuv under which every connection comes from a port of its own. -/
def Uv.numbered : Uv :=
  { Uv.cooperative with getpeername := fun c _ => .inet 127 0 0 1 (0, UInt8.ofNat c) }

/-- Two connections from different ports; the first is closed. -/
theorem holdsLive_two :
    (serverSystem Uv.numbered).Along
      (fun s e => HoldsLive ((serverSystem Uv.numbered).step s e).world) ServerRun.init
      [.listen { listenPort := 5000, listenPortRange := 1 }, .startUvLoop, .setName,
        .newConnection 0 0, .newConnection 0 0, .client 0 (.read (-4095) none),
        .client 0 .closed] := by
  refine (holdsLive_iff ?_).mpr ?_
  · decide
  · exact ⟨trivial, trivial, trivial, fun _ _ => rfl, fun _ _ => rfl, trivial, trivial, trivial⟩

/-- Two connections whose ends cannot be named: the second takes the place of the first, which
    is still open. -/
theorem dropped_live :
    (serverSystem Uv.nameless).Valid ServerRun.init
      [.listen { listenPort := 5000, listenPortRange := 1 }, .startUvLoop, .setName,
        .newConnection 0 0, .newConnection 0 0] ∧
    ¬ HoldsLive ((serverSystem Uv.nameless).run ServerRun.init
      [.listen { listenPort := 5000, listenPortRange := 1 }, .startUvLoop, .setName,
        .newConnection 0 0, .newConnection 0 0]).world := by
  refine ⟨by decide, fun h => ?_⟩
  have hheld := (h 0).mpr ⟨by decide, by decide⟩
  exact absurd hheld (by decide)

end TcpUv
