import TcpUv.Lib.Talkers
import TcpUv.Proof.Networks

/-!
# What a network comes to

Frames, chunks, receive buffers and the receive loop are there so that the programs can talk. Here
they are gone: every proper run of a network is, event by event, a run of talkers, which keep
nothing but what they said and hear, in order, what was said at the other end
(`network_refines`). The reading of a stream are the lines of it that parse, and the voice of a
connection are the messages it was given to send, as they are heard.
-/

set_option autoImplicit false

namespace TcpUv

open Lib (Network System talkers Talk)

namespace Program

/-- What a connection has said, as it is heard. -/
def voice (p : Program) (s : p.Process) (c : ClientId) : List Message :=
  if c < p.count s then (p.conn s c).sent.filterMap heard else []

theorem voice_init (p : Program) (c : ClientId) : p.voice p.init c = [] := by
  cases p <;> exact if_neg (Nat.not_lt_zero c)

end Program

namespace Proper

variable {ι : Type} [DecidableEq ι] {prog : ι → Program}
  {link : ι → ClientId → Option (ι × ClientId)} {es : List (NetworkEvent prog)}

/-- What is read off a stream was said on the connection. -/
theorem reads (h : Proper prog link es) (i : ι) (c : ClientId) :
    requests ((prog i).component.sent ((networkRun prog link es).node i) c) <+:
      (prog i).voice ((networkRun prog link es).node i) c := by
  have hi := h.fulfils_any.1 i
  change requests (if c < (prog i).count ((networkRun prog link es).node i) then _ else []) <+:
    if c < (prog i).count ((networkRun prog link es).node i) then _ else []
  split
  · rename_i hc
    rw [← requests_frames fun m hm => (hi.conduct.sayable hc hm).oneLine]
    exact requests_prefix (hi.streams c hc).streamsSent.1.flatten
  · exact List.prefix_rfl

/-- What was said stays said. -/
theorem keeps {e : NetworkEvent prog} (h : Proper prog link (es ++ [e])) (c : ClientId) :
    (prog e.1).voice ((networkRun prog link es).node e.1) c <+:
      (prog e.1).voice ((prog e.1).system.step ((networkRun prog link es).node e.1) e.2) c := by
  obtain ⟨-, ⟨ha, -⟩, -⟩ := (System.valid_append _ _ _ _).mp h.valid
  have hi := h.before.fulfils_any.1 e.1
  unfold Program.voice
  by_cases hc : c < (prog e.1).count ((networkRun prog link es).node e.1)
  · obtain ⟨hc', hacts⟩ := Program.acts_grow hi.conduct.sane hi.streams ha hc
    rw [if_pos hc, if_pos hc']
    exact (hacts.filterMap _).filterMap _
  · rw [if_neg hc]
    exact List.nil_prefix

/-- Every event is a talk. -/
theorem speaks (h : Proper prog link es) :
    (network prog link).system.Along
      ((network prog link).Speaks requests fun i => (prog i).voice) (networkInit prog) es :=
  System.along_of_runs (K := Proper prog link) (fun _ _ h => h.before)
    (fun _ _ h => ⟨fun i c => h.before.reads i c, fun c => h.keeps c⟩) h

end Proper

section

variable {ι : Type} [DecidableEq ι] {prog : ι → Program}
  {link : ι → ClientId → Option (ι × ClientId)} {es : List (NetworkEvent prog)}

/-- **A network of the programs is a network of talkers**: for every proper run there is a run of
    talkers, one talk an event, that ends with every connection having said what it was given to
    send, and heard what was handed over. -/
theorem network_refines (h : Proper prog link es) :
    ∃ talks : List ((_ : ι) × Talk ClientId Message), talks.map Sigma.fst = es.map Sigma.fst ∧
      (talkers Message link).system.Valid (.init fun _ _ => []) talks ∧
      ∀ i, ∀ c < (prog i).count ((networkRun prog link es).node i),
        ((talkers Message link).system.run (.init fun _ _ => []) talks).node i c =
            ((prog i).conn ((networkRun prog link es).node i) c).sent.filterMap heard ∧
          ((talkers Message link).system.run (.init fun _ _ => []) talks).taken i c =
            ((prog i).conn ((networkRun prog link es).node i) c).delivered := by
  obtain ⟨talks, hsame, hvalid, hrun⟩ := Network.refines_talkers
    (N := network prog link) (v := fun i => (prog i).voice) requests_prefix rfl
    (fun i c => (prog i).voice_init c) h.valid h.speaks
  -- what a talker says is the voice of the connection, and what it takes what was handed over
  refine ⟨talks, hsame, hvalid, fun i c hc => ?_⟩
  change ((talkers Message link).system.run _ talks) = _ at hrun
  rw [hrun]
  exact ⟨if_pos hc, (h.delivered hc).symm⟩

theorem network_refines_greeting :
    ∃ talks : List ((_ : Bool) × Talk ClientId Message),
      talks.map Sigma.fst = greeting.map Sigma.fst ∧
      (talkers Message joined).system.Valid (.init fun _ _ => []) talks ∧
      ((talkers Message joined).system.run (.init fun _ _ => []) talks).taken false 0 =
        [.handshakeResponse "V01".toList ":5000".toList "127.0.0.1:35091".toList] := by
  obtain ⟨talks, hsame, hvalid, hend⟩ := network_refines proper_greeting
  refine ⟨talks, hsame, hvalid, ?_⟩
  rw [(hend false 0 (by decide)).2]
  decide

end

end TcpUv
