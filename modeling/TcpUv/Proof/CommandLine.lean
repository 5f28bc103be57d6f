import TcpUv.Main
import TcpUv.Proof.Lifecycle
import TcpUv.Proof.Networks

/-!
# The node's command line

Every command line reads in one way as a list of arguments, a flag with its value or a word that is
no flag, and at most one flag that is left without a value (`CommandLine.reads`). What
`processArgs` makes of it is then plain (`processArgs_eq`): the peers in order, the last port, and
that port alone is tried. A node is started decently by a command line whose words have no
whitespace in them, and a port that was asked for is the only one it listens on (`node_port`).
-/

set_option autoImplicit false

namespace TcpUv

open NodeApp

/-! ## The language -/

/-- One argument of the node. -/
inductive Arg where
  | peer (endpoint : Str)
  | port (text : Str)
  | word (text : Str) (plain : text ≠ textPeer ∧ text ≠ textPort)

namespace Arg

/-- How it is written. -/
def words : Arg → List Str
  | .peer endpoint => [textPeer, endpoint]
  | .port text => [textPort, text]
  | .word text _ => [text]

def endpoint? : Arg → Option Str
  | .peer endpoint => some endpoint
  | _ => none

def port? : Arg → Option Str
  | .port text => some text
  | _ => none

end Arg

/-- A flag that stands at the end, without a value. -/
inductive Dangling where
  | none
  | peer
  | port
  deriving DecidableEq, Repr

def Dangling.words : Dangling → List Str
  | .none => []
  | .peer => [textPeer]
  | .port => [textPort]

structure CommandLine where
  args : List Arg
  dangling : Dangling

namespace CommandLine

/-- How it is written. -/
def words (l : CommandLine) : List Str := l.args.flatMap Arg.words ++ l.dangling.words

def cons (a : Arg) (l : CommandLine) : CommandLine := { l with args := a :: l.args }

/-- How it is read. -/
def read : List Str → CommandLine
  | [] => ⟨[], .none⟩
  | arg :: rest =>
      if hpeer : arg = textPeer then
        match rest with
        | [] => ⟨[], .peer⟩
        | endpoint :: rest => cons (.peer endpoint) (read rest)
      else if hport : arg = textPort then
        match rest with
        | [] => ⟨[], .port⟩
        | text :: rest => cons (.port text) (read rest)
      else cons (.word arg ⟨hpeer, hport⟩) (read rest)

theorem words_cons (a : Arg) (l : CommandLine) : (cons a l).words = a.words ++ l.words := by
  rw [words, words, cons, List.flatMap_cons, List.append_assoc]

/-- What is read is what was written … -/
theorem words_read (argv : List Str) : (read argv).words = argv := by
  fun_induction read argv with
  | case1 => rfl
  | case2 => rfl
  | case3 endpoint rest ih => rw [words_cons, ih]; rfl
  | case4 => rfl
  | case5 _ text rest ih => rw [words_cons, ih]; rfl
  | case6 arg rest hpeer hport ih => rw [words_cons, ih]; rfl

/-- … and nothing else reads like it. -/
theorem read_words (l : CommandLine) : read l.words = l := by
  obtain ⟨args, dangling⟩ := l
  induction args with
  | nil => cases dangling <;> simp [words, Dangling.words, read, textPeer, textPort]
  | cons a args ih =>
    -- a flag takes the next word for its value, whatever that looks like
    rw [show (⟨a :: args, dangling⟩ : CommandLine) = cons a ⟨args, dangling⟩ from rfl, words_cons]
    cases a with
    | peer endpoint =>
      show read (textPeer :: endpoint :: _) = _
      rw [read, dif_pos rfl]
      exact congrArg (cons (.peer endpoint)) ih
    | port text =>
      show read (textPort :: text :: _) = _
      rw [read, dif_neg (by decide), dif_pos rfl]
      exact congrArg (cons (.port text)) ih
    | word text plain =>
      show read (text :: _) = _
      rw [read.eq_def]
      dsimp only
      rw [dif_neg plain.1, dif_neg plain.2]
      exact congrArg (cons (.word text plain)) ih

/-! ## What it means -/

def peers (l : CommandLine) : List Str := l.args.filterMap Arg.endpoint?

def ports (l : CommandLine) : List Str := l.args.filterMap Arg.port?

/-- The parameters a command line asks for, given those without it. -/
def asks (l : CommandLine) (params : AppParams) : Except StdException AppParams :=
  (l.ports.mapM stoi).map fun ports =>
    { extraPeers := l.peers, listenPort := ports.getLastD params.listenPort,
      listenPortRange := if l.ports = [] then params.listenPortRange else 1 }

end CommandLine

theorem processArgsFrom_words (dangling : Dangling) : ∀ (args : List Arg) (params : AppParams),
    processArgsFrom (CommandLine.words ⟨args, dangling⟩) params =
      ((args.filterMap Arg.port?).mapM stoi).map fun ports =>
        { extraPeers := params.extraPeers ++ args.filterMap Arg.endpoint?,
          listenPort := ports.getLastD params.listenPort,
          listenPortRange :=
            if args.filterMap Arg.port? = [] then params.listenPortRange else 1 } := by
  intro args
  induction args with
  | nil =>
    intro params
    have hnone : (⟨params.extraPeers ++ [], params.listenPort, params.listenPortRange⟩ :
        AppParams) = params := by rw [List.append_nil]
    cases dangling <;> exact congrArg Except.ok hnone.symm
  | cons a args ih =>
    intro params
    have hwords := CommandLine.words_cons a ⟨args, dangling⟩
    rw [show (⟨a :: args, dangling⟩ : CommandLine) = CommandLine.cons a ⟨args, dangling⟩ from rfl,
      hwords]
    cases a with
    | peer endpoint =>
      show processArgsFrom (textPeer :: endpoint :: _) params = _
      rw [processArgsFrom, if_pos rfl]
      refine (ih _).trans ?_
      rw [List.append_assoc]
      rfl
    | port text =>
      show processArgsFrom (textPort :: text :: _) params = _
      rw [processArgsFrom, if_neg (by decide), if_pos rfl]
      rw [List.filterMap_cons_some (f := Arg.port?) (a := .port text) rfl, List.mapM_cons]
      cases hport : stoi text with
      | error e => rfl
      | ok port =>
        refine (ih _).trans ?_
        show Except.map _ _ = Except.map _ (((args.filterMap Arg.port?).mapM stoi).map (port :: ·))
        -- a later port overrides this one, and a later one that is no number ends it all
        cases (args.filterMap Arg.port?).mapM stoi with
        | error e => rfl
        | ok ports =>
          simp only [Except.map, List.getLastD_cons, List.filterMap_cons, Arg.endpoint?, ite_self,
            reduceCtorEq, if_false]
    | word text plain =>
      show processArgsFrom (text :: _) params = _
      rw [processArgsFrom.eq_def]
      dsimp only
      rw [if_neg plain.1, if_neg plain.2]
      exact ih params

/-- **What `processArgs` makes of a command line**: the peers in order; of the ports, all of which
    have to be numbers, the last, and no other is tried. -/
theorem processArgs_eq (params : AppParams) (argv : List Str) :
    processArgs params argv = (CommandLine.read argv).asks params := by
  have hwords := CommandLine.words_read argv
  generalize CommandLine.read argv = l at hwords ⊢
  obtain ⟨args, dangling⟩ := l
  rw [processArgs, ← hwords, processArgsFrom_words]
  rfl

/-- … and it can be read in one way only. -/
theorem processArgs_reads (params : AppParams) (argv : List Str) :
    (∃! l : CommandLine, l.words = argv) ∧
      ∀ l : CommandLine, l.words = argv → processArgs params argv = l.asks params := by
  have hread : ∀ l : CommandLine, l.words = argv → l = CommandLine.read argv := by
    rintro l rfl
    exact (CommandLine.read_words l).symm
  refine ⟨⟨CommandLine.read argv, CommandLine.words_read argv, hread⟩, fun l hl => ?_⟩
  rw [hread l hl]
  exact processArgs_eq params argv

/-! ## What comes of it -/

namespace CommandLine

theorem mem_words {l : CommandLine} {endpoint : Str} (h : endpoint ∈ l.peers) :
    endpoint ∈ l.words := by
  obtain ⟨a, ha, hendpoint⟩ := List.mem_filterMap.mp h
  refine List.mem_append_left _ (List.mem_flatMap.mpr ⟨a, ha, ?_⟩)
  cases a with
  | peer endpoint' =>
    rw [← Option.some.inj hendpoint]
    simp [Arg.words]
  | _ => cases hendpoint

/-- The parameters of a command line. -/
theorem asks_ok {l : CommandLine} {params params' : AppParams} (h : l.asks params = .ok params') :
    params'.extraPeers = l.peers ∧ (l.ports ≠ [] → params'.listenPortRange = 1) := by
  unfold asks at h
  cases hports : l.ports.mapM stoi with
  | error e =>
    rw [hports] at h
    cases h
  | ok ports =>
    rw [hports] at h
    rw [← Except.ok.inj h]
    exact ⟨rfl, fun hne => if_neg hne⟩

end CommandLine

section

variable {uv : Uv} {argv : List Str} {params params' : AppParams}

/-- **A node that was given its port** on the command line listens on that port or on none. -/
theorem node_port (h : processArgs params argv = .ok params')
    (hport : (CommandLine.read argv).ports ≠ []) :
    ∀ port ∈ (NodeEvent.start params').listensOn uv, port = params'.listenPort := by
  rw [processArgs_eq] at h
  have hrange := (CommandLine.asks_ok h).2 hport
  intro port hlistens
  change port ∈ firstPort uv params'.listenPort params'.listenPortRange at hlistens
  have honly : listenPorts params'.listenPort 1 = [params'.listenPort] := by
    rw [show listenPorts params'.listenPort 1 = portsFrom 1 params'.listenPort from rfl,
      portsFrom_succ]
    rfl
  rw [hrange, firstPort, honly] at hlistens
  exact List.mem_singleton.mp (List.mem_of_find?_eq_some hlistens)

example : ∀ port ∈ (NodeEvent.start
    { extraPeers := ["localhost:5500".toList], listenPort := 5005, listenPortRange := 1 }).listensOn
      .cooperative, port = 5005 :=
  node_port (show processArgs { listenPort := 5000, listenPortRange := 10 }
    ["node".toList, textPeer, "localhost:5500".toList, textPort, "5005".toList] = _ from rfl)
    (by decide)

/-- A command line without whitespace starts a node decently. -/
theorem decent_commandLine (h : processArgs params argv = .ok params')
    (hclean : ∀ word ∈ argv, NoSpace word) : (Program.node uv).Decent (.start params') := by
  rw [processArgs_eq] at h
  intro peer hpeer
  rw [(CommandLine.asks_ok h).1] at hpeer
  exact hclean peer (CommandLine.words_read argv ▸ CommandLine.mem_words hpeer)

end

end TcpUv
