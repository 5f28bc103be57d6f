import TcpUv.CppStd

/-!
# Messages and their text — `lib/message.{hpp,cpp}`

The five message classes, the serialising visitor and the token parser. A message
travels as one line: a keyword and its fields, separated by single spaces, closed by
`'\n'`. The order of a handshake's two addresses differs between `HANDSH` and
`HANDSHRESP`, and the field names below keep the order of each constructor.

Three facts carry everything downstream: a message whose string fields are words
survives the round trip (`parseLine_serialize`), its text carries no terminator
(`newline_not_mem_serialize`), and whatever the parser accepts has word fields
(`wf_of_parseLine`).
-/

set_option autoImplicit false

namespace TcpUv

open Lib

/-- `BaseMessage` and its five subclasses. -/
inductive Message where
  | handshake (myVersion yourAddr myAddr : Str)
  | handshakeResponse (myVersion myAddr yourAddr : Str)
  | ping (text : Str)
  | pingResponse (text : Str)
  | otherPeer (host : Str) (port : Int32)
  deriving DecidableEq, Repr

/-! The keywords, spelled out: a string literal is slow to unfold inside a proof. -/

/-- `"HANDSH"` -/
def kwHandsh : Str := ['H', 'A', 'N', 'D', 'S', 'H']
/-- `"HANDSHRESP"` -/
def kwHandshResp : Str := ['H', 'A', 'N', 'D', 'S', 'H', 'R', 'E', 'S', 'P']
/-- `"PING"` -/
def kwPing : Str := ['P', 'I', 'N', 'G']
/-- `"PINGRESP"` -/
def kwPingResp : Str := ['P', 'I', 'N', 'G', 'R', 'E', 'S', 'P']
/-- `"OPEER"` -/
def kwOpeer : Str := ['O', 'P', 'E', 'E', 'R']

/-- `SerializerMessageVisitor`: the text of a message, without the terminator. -/
def serialize : Message → Str
  | .handshake myVersion yourAddr myAddr =>
      kwHandsh ++ ' ' :: (myVersion ++ ' ' :: (yourAddr ++ ' ' :: myAddr))
  | .handshakeResponse myVersion myAddr yourAddr =>
      kwHandshResp ++ ' ' :: (myVersion ++ ' ' :: (myAddr ++ ' ' :: yourAddr))
  | .ping text => kwPing ++ ' ' :: text
  | .pingResponse text => kwPingResp ++ ' ' :: text
  | .otherPeer host port => kwOpeer ++ ' ' :: (host ++ ' ' :: stdToString port.toInt)

/-- `MessageDeserializer::parseMessage`. `none` is the null pointer; the exception is
    `stoi`'s, which no caller guards. -/
def parseMessage (tokens : List Str) : Except StdException (Option Message) :=
  if tokens.length = 0 then .ok none
  else if tokens.getD 0 [] = kwHandsh ∧ 4 ≤ tokens.length then
    .ok (some (.handshake (tokens.getD 1 []) (tokens.getD 2 []) (tokens.getD 3 [])))
  else if tokens.getD 0 [] = kwHandshResp ∧ 4 ≤ tokens.length then
    .ok (some (.handshakeResponse (tokens.getD 1 []) (tokens.getD 2 []) (tokens.getD 3 [])))
  else if tokens.getD 0 [] = kwPing ∧ 2 ≤ tokens.length then
    .ok (some (.ping (tokens.getD 1 [])))
  else if tokens.getD 0 [] = kwPingResp ∧ 2 ≤ tokens.length then
    .ok (some (.pingResponse (tokens.getD 1 [])))
  else if tokens.getD 0 [] = kwOpeer ∧ 3 ≤ tokens.length then
    match stoi (tokens.getD 2 []) with
    | .ok port => .ok (some (.otherPeer (tokens.getD 1 []) port))
    | .error e => .error e
  else .ok none

/-- A received line, tokenised by the stringstream loop and parsed. -/
def parseLine (line : Str) : Except StdException (Option Message) :=
  parseMessage (words line)

/-- The bytes `sendMessage` writes for a message: its text and the terminator. -/
def frame (m : Message) : Str := serialize m ++ ['\n']

/-- The string fields of a message. -/
def Message.fields : Message → List Str
  | .handshake myVersion yourAddr myAddr => [myVersion, yourAddr, myAddr]
  | .handshakeResponse myVersion myAddr yourAddr => [myVersion, myAddr, yourAddr]
  | .ping text => [text]
  | .pingResponse text => [text]
  | .otherPeer host _ => [host]

/-- The encoder's domain: every string field is non-empty and free of whitespace. -/
def Message.WF (m : Message) : Prop := ∀ f ∈ m.fields, IsWord f

instance (m : Message) : Decidable m.WF := List.decidableBAll IsWord m.fields

/-! ## The round trip -/

theorem isWord_kwHandsh : IsWord kwHandsh := by decide
theorem isWord_kwHandshResp : IsWord kwHandshResp := by decide
theorem isWord_kwPing : IsWord kwPing := by decide
theorem isWord_kwPingResp : IsWord kwPingResp := by decide
theorem isWord_kwOpeer : IsWord kwOpeer := by decide

/-- A line of three words after the keyword. -/
theorem words_four {k a b d : Str} (hk : IsWord k) (ha : IsWord a) (hb : IsWord b)
    (hd : IsWord d) : words (k ++ ' ' :: (a ++ ' ' :: (b ++ ' ' :: d))) = [k, a, b, d] := by
  rw [words_cons_space hk, words_cons_space ha, words_cons_space hb, words_of_isWord hd]

theorem words_three {k a b : Str} (hk : IsWord k) (ha : IsWord a) (hb : IsWord b) :
    words (k ++ ' ' :: (a ++ ' ' :: b)) = [k, a, b] := by
  rw [words_cons_space hk, words_cons_space ha, words_of_isWord hb]

theorem words_two {k a : Str} (hk : IsWord k) (ha : IsWord a) :
    words (k ++ ' ' :: a) = [k, a] := by
  rw [words_cons_space hk, words_of_isWord ha]

/-- The tokens of a serialised message: its keyword and its fields, in order. -/
def tokensOf : Message → List Str
  | .handshake myVersion yourAddr myAddr => [kwHandsh, myVersion, yourAddr, myAddr]
  | .handshakeResponse myVersion myAddr yourAddr => [kwHandshResp, myVersion, myAddr, yourAddr]
  | .ping text => [kwPing, text]
  | .pingResponse text => [kwPingResp, text]
  | .otherPeer host port => [kwOpeer, host, stdToString port.toInt]

theorem words_serialize {m : Message} (h : m.WF) : words (serialize m) = tokensOf m := by
  cases m with
  | handshake v y a =>
    exact words_four isWord_kwHandsh (h v (by simp [Message.fields]))
      (h y (by simp [Message.fields])) (h a (by simp [Message.fields]))
  | handshakeResponse v a y =>
    exact words_four isWord_kwHandshResp (h v (by simp [Message.fields]))
      (h a (by simp [Message.fields])) (h y (by simp [Message.fields]))
  | ping t => exact words_two isWord_kwPing (h t (by simp [Message.fields]))
  | pingResponse t => exact words_two isWord_kwPingResp (h t (by simp [Message.fields]))
  | otherPeer hst p =>
    exact words_three isWord_kwOpeer (h hst (by simp [Message.fields]))
      (isWord_stdToString p.toInt)

theorem parseMessage_tokensOf (m : Message) : parseMessage (tokensOf m) = .ok (some m) := by
  cases m <;> simp [parseMessage, tokensOf, kwHandsh, kwHandshResp, kwPing, kwPingResp, kwOpeer]

/-- **The round trip**: a message with word fields decodes from its own text. -/
theorem parseLine_serialize {m : Message} (h : m.WF) : parseLine (serialize m) = .ok (some m) := by
  rw [parseLine, words_serialize h, parseMessage_tokensOf]

/-- Non-space characters exclude the terminator. -/
theorem newline_not_mem {s : Str} (h : ∀ ch ∈ s, isspace ch = false) : '\n' ∉ s :=
  fun hm => absurd (h _ hm) (by decide)

theorem IsWord.newline_not_mem {w : Str} (h : IsWord w) : '\n' ∉ w :=
  TcpUv.newline_not_mem h.2

/-- A serialised message with word fields carries no terminator. -/
theorem newline_not_mem_serialize {m : Message} (h : m.WF) : '\n' ∉ serialize m := by
  have hf : ∀ f ∈ m.fields, '\n' ∉ f := fun f hm => IsWord.newline_not_mem (h f hm)
  have hnum : ∀ n : Int, '\n' ∉ stdToString n := fun n =>
    IsWord.newline_not_mem (isWord_stdToString n)
  have hkw : ∀ k ∈ [kwHandsh, kwHandshResp, kwPing, kwPingResp, kwOpeer], '\n' ∉ k := by decide
  have hsp : '\n' ≠ ' ' := by decide
  cases m <;> simp only [Message.fields, List.forall_mem_cons, List.not_mem_nil,
    false_implies, implies_true, and_true] at hf hkw <;>
    simp only [serialize, List.mem_append, List.mem_cons, hf, hkw, hnum, hsp, or_self,
      not_false_eq_true]

/-- A frame carries exactly one terminator, its last character. -/
theorem count_newline_frame {m : Message} (h : m.WF) :
    (frame m).count '\n' = 1 ∧ (frame m).getLast? = some '\n' := by
  have hz : (serialize m).count '\n' = 0 :=
    List.count_eq_zero.mpr (newline_not_mem_serialize h)
  simp [frame, hz]

/-! ## What the parser accepts -/

theorem isWord_getD {s : Str} {i : Nat} (h : i < (words s).length) :
    IsWord ((words s).getD i []) := by
  rw [List.getD_eq_getElem?_getD, List.getElem?_eq_getElem h]
  exact isWord_of_mem_words (List.getElem_mem h)

/-- **Everything the decoder accepts is in the encoder's domain.** -/
theorem wf_of_parseLine {s : Str} {m : Message} (h : parseLine s = .ok (some m)) : m.WF := by
  unfold parseLine parseMessage at h
  split at h
  · cases h
  split at h
  · rename_i hs
    simp only [Except.ok.injEq, Option.some.injEq] at h
    subst h
    intro f hf
    simp only [Message.fields, List.mem_cons, List.not_mem_nil, or_false] at hf
    rcases hf with rfl | rfl | rfl <;> exact isWord_getD (by omega)
  split at h
  · rename_i hs
    simp only [Except.ok.injEq, Option.some.injEq] at h
    subst h
    intro f hf
    simp only [Message.fields, List.mem_cons, List.not_mem_nil, or_false] at hf
    rcases hf with rfl | rfl | rfl <;> exact isWord_getD (by omega)
  split at h
  · simp only [Except.ok.injEq, Option.some.injEq] at h
    subst h
    intro f hf
    rw [Message.fields, List.mem_singleton] at hf
    subst hf
    exact isWord_getD (by omega)
  split at h
  · simp only [Except.ok.injEq, Option.some.injEq] at h
    subst h
    intro f hf
    rw [Message.fields, List.mem_singleton] at hf
    subst hf
    exact isWord_getD (by omega)
  split at h
  · split at h
    · simp only [Except.ok.injEq, Option.some.injEq] at h
      subst h
      intro f hf
      rw [Message.fields, List.mem_singleton] at hf
      subst hf
      exact isWord_getD (by omega)
    · cases h
  · cases h

example : parseLine "OPEER 10.0.0.1 +7x extra".toList = .ok (some (.otherPeer "10.0.0.1".toList 7)) := by
  decide

end TcpUv
