import TcpUv.Message

/-!
# What the parser accepts

`Grammar` is the relation between token vectors and messages that the parser is written to
compute: a keyword and its fields, in order, surplus tokens ignored. `parseMessage` computes
it except where it meets a port text that `stoi` rejects; the exception is not turned into a
null pointer there, and no caller catches it (`parsesCleanly_iff`).

What the decoder keeps of a line is inside the encoder's domain whatever the line was, so
that encoding it is a normal form (`reencode_stable`).
-/

set_option autoImplicit false

namespace TcpUv

open Lib

/-! ## The grammar -/

/-- The token vectors that are messages. -/
inductive Grammar : List Str → Message → Prop where
  | handshake (myVersion yourAddr myAddr : Str) (surplus : List Str) :
      Grammar (kwHandsh :: myVersion :: yourAddr :: myAddr :: surplus)
        (.handshake myVersion yourAddr myAddr)
  | handshakeResponse (myVersion myAddr yourAddr : Str) (surplus : List Str) :
      Grammar (kwHandshResp :: myVersion :: myAddr :: yourAddr :: surplus)
        (.handshakeResponse myVersion myAddr yourAddr)
  | ping (text : Str) (surplus : List Str) : Grammar (kwPing :: text :: surplus) (.ping text)
  | pingResponse (text : Str) (surplus : List Str) :
      Grammar (kwPingResp :: text :: surplus) (.pingResponse text)
  | otherPeer (host portText : Str) (port : Int32) (surplus : List Str)
      (hport : stoi portText = .ok port) :
      Grammar (kwOpeer :: host :: portText :: surplus) (.otherPeer host port)

/-- An `OPEER` whose port text is not a number, or not one of `int`. -/
def BadPort (tokens : List Str) : Prop :=
  ∃ host portText surplus e,
    tokens = kwOpeer :: host :: portText :: surplus ∧ stoi portText = .error e

/-- The parser is the grammar on a token vector: it returns, with the message where there is
    one, and with a null pointer where there is none. -/
structure ParsesCleanly (tokens : List Str) : Prop where
  returns : ∃ om, parseMessage tokens = .ok om
  accepts : ∀ m, parseMessage tokens = .ok (some m) ↔ Grammar tokens m
  rejects : (∀ m, ¬ Grammar tokens m) → parseMessage tokens = .ok none

/-- A message of the grammar is parsed. -/
theorem parseMessage_of_grammar {tokens : List Str} {m : Message} (h : Grammar tokens m) :
    parseMessage tokens = .ok (some m) := by
  cases h with
  | handshake => simp [parseMessage]
  | handshakeResponse => simp [parseMessage, kwHandsh, kwHandshResp]
  | ping => simp [parseMessage, kwHandsh, kwHandshResp, kwPing]
  | pingResponse => simp [parseMessage, kwHandsh, kwHandshResp, kwPing, kwPingResp]
  | otherPeer host portText port surplus hport =>
    simp [parseMessage, kwHandsh, kwHandshResp, kwPing, kwPingResp, kwOpeer, hport]

/-- A port text `stoi` rejects ends the parse in its exception. -/
theorem parseMessage_of_badPort {tokens : List Str} (h : BadPort tokens) :
    ∃ e, parseMessage tokens = .error e := by
  obtain ⟨host, portText, surplus, e, rfl, hport⟩ := h
  exact ⟨e, by simp [parseMessage, kwHandsh, kwHandshResp, kwPing, kwPingResp, kwOpeer, hport]⟩

/-- Vectors of at least `n` tokens, of which the first is given. -/
theorem eq_cons_of_getD {tokens : List Str} {kw : Str} (hkw : tokens.getD 0 [] = kw)
    (hlen : 2 ≤ tokens.length) : ∃ a rest, tokens = kw :: a :: rest := by
  match tokens, hlen with
  | t :: a :: rest, _ => exact ⟨a, rest, by rw [← hkw]; rfl⟩

/-- **The three ways a parse can end**, branch by branch of the source. -/
theorem parseMessage_cases (tokens : List Str) :
    (∃ m, Grammar tokens m ∧ parseMessage tokens = .ok (some m)) ∨ BadPort tokens ∨
      parseMessage tokens = .ok none := by
  unfold parseMessage
  split
  · exact Or.inr (Or.inr rfl)
  split
  · rename_i h
    obtain ⟨v, rest, rfl⟩ := eq_cons_of_getD h.1 (by omega)
    match rest, h.2 with
    | y :: a :: surplus, _ => exact Or.inl ⟨_, .handshake v y a surplus, rfl⟩
  split
  · rename_i h
    obtain ⟨v, rest, rfl⟩ := eq_cons_of_getD h.1 (by omega)
    match rest, h.2 with
    | a :: y :: surplus, _ => exact Or.inl ⟨_, .handshakeResponse v a y surplus, rfl⟩
  split
  · rename_i h
    obtain ⟨text, surplus, rfl⟩ := eq_cons_of_getD h.1 h.2
    exact Or.inl ⟨_, .ping text surplus, rfl⟩
  split
  · rename_i h
    obtain ⟨text, surplus, rfl⟩ := eq_cons_of_getD h.1 h.2
    exact Or.inl ⟨_, .pingResponse text surplus, rfl⟩
  split
  · rename_i h
    obtain ⟨host, rest, rfl⟩ := eq_cons_of_getD h.1 (by omega)
    match rest, h.2 with
    | portText :: surplus, _ =>
      rw [show (kwOpeer :: host :: portText :: surplus).getD 2 [] = portText from rfl]
      cases hport : stoi portText with
      | ok port => exact Or.inl ⟨_, .otherPeer host portText port surplus hport, rfl⟩
      | error e => exact Or.inr (Or.inl ⟨host, portText, surplus, e, rfl, hport⟩)
  · exact Or.inr (Or.inr rfl)

/-- **The parser is its grammar**, exactly where no port text is rejected by `stoi`. -/
theorem parsesCleanly_iff (tokens : List Str) : ParsesCleanly tokens ↔ ¬ BadPort tokens := by
  constructor
  · intro h hbad
    obtain ⟨om, hok⟩ := h.returns
    obtain ⟨e, herr⟩ := parseMessage_of_badPort hbad
    rw [hok] at herr
    cases herr
  · intro hbad
    rcases parseMessage_cases tokens with ⟨m, hm, hparse⟩ | h | hparse
    · refine ⟨⟨_, hparse⟩, fun m' => ⟨fun h => ?_, parseMessage_of_grammar⟩, fun hno => ?_⟩
      · rw [hparse, Except.ok.injEq, Option.some.injEq] at h
        exact h ▸ hm
      · exact absurd hm (hno m)
    · exact absurd h hbad
    · refine ⟨⟨_, hparse⟩, fun m' => ⟨fun h => ?_, parseMessage_of_grammar⟩, fun _ => hparse⟩
      rw [hparse] at h
      cases h

/-- `OPEER x y`: the parser throws where it should reject. -/
theorem opeer_not_cleanly : ¬ ParsesCleanly ["OPEER".toList, ['x'], ['y']] := by
  intro h
  obtain ⟨om, hok⟩ := h.returns
  have hthrows : parseMessage ["OPEER".toList, ['x'], ['y']] = .error .invalidArgument := by decide
  rw [hthrows] at hok
  cases hok

/-! ## Re-encoding -/

/-- **Re-encoding is stable**: what the decoder makes of a line, whatever the line, has a text
    of one line that decodes to it again, and encodes to that text again. -/
theorem reencode_stable {line : Str} {m : Message} (h : parseLine line = .ok (some m)) :
    '\n' ∉ serialize m ∧ ∃ m', parseLine (serialize m) = .ok (some m') ∧ m' = m ∧
      serialize m' = serialize m :=
  have hwf := wf_of_parseLine h
  ⟨newline_not_mem_serialize hwf, m, parseLine_serialize hwf, rfl, rfl⟩

/-- Surplus tokens, odd whitespace and a lenient port. -/
theorem reencode_stable_lenient :
    '\n' ∉ serialize (.otherPeer ['h'] 7) ∧
      ∃ m', parseLine (serialize (.otherPeer ['h'] 7)) = .ok (some m') ∧ m' = .otherPeer ['h'] 7 ∧
        serialize m' = serialize (.otherPeer ['h'] 7) :=
  have hparse : parseLine "\tOPEER  h +007abc rest".toList = .ok (some (.otherPeer ['h'] 7)) := by
    decide
  reencode_stable hparse

end TcpUv
