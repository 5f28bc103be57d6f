import TcpUv.CppStd

/-!
# Endpoints — `node/endpoint.{hpp,cpp}`

A host and a port, and the text `host:port` they are passed around as. Parsing cuts at
the *first* colon and lets no exception out: a port text `stoi` rejects reads as 0.
-/

set_option autoImplicit false

namespace TcpUv

structure Endpoint where
  myHost : Str
  myPort : Int32
  deriving DecidableEq, Repr

/-- `Endpoint::Endpoint(string)`. -/
def Endpoint.ofString (s : Str) : Endpoint :=
  match s.idxOf? ':' with
  | none => ⟨s, 0⟩
  | some colonIdx =>
      match stoi (s.drop (colonIdx + 1)) with
      | .ok port => ⟨s.take colonIdx, port⟩
      | .error _ => ⟨s.take colonIdx, 0⟩

/-- The text of an endpoint. -/
def endpointText (host : Str) (port : Int32) : Str := host ++ ':' :: stdToString port.toInt

/-- `Endpoint::getEndpoint`. -/
def Endpoint.getEndpoint (e : Endpoint) : Str := endpointText e.myHost e.myPort

theorem idxOf?_colon {h rest : Str} (hh : ':' ∉ h) :
    (h ++ ':' :: rest).idxOf? ':' = some h.length := by
  induction h with
  | nil => simp [List.idxOf?_cons]
  | cons ch h ih =>
    have hne : ch ≠ ':' := fun he => hh (by simp [he])
    rw [List.cons_append, List.idxOf?_cons, ih fun hm => hh (by simp [hm])]
    simp [hne]

/-- **The text of an endpoint whose host has no colon parses back.** -/
theorem Endpoint.ofString_endpointText {h : Str} (hh : ':' ∉ h) (p : Int32) :
    Endpoint.ofString (endpointText h p) = ⟨h, p⟩ := by
  rw [Endpoint.ofString, endpointText, idxOf?_colon hh]
  have hd : (h ++ ':' :: stdToString p.toInt).drop (h.length + 1) = stdToString p.toInt := by
    rw [List.drop_append]
    simp
  simp only [hd, stoi_stdToString, List.take_left']

/-- The host part has no colon. -/
theorem Endpoint.ofString_no_colon (s : Str) : ':' ∉ (Endpoint.ofString s).myHost := by
  unfold Endpoint.ofString
  cases h : s.idxOf? ':' with
  | none => exact List.idxOf?_eq_none_iff.mp h
  | some i =>
    have htake : ':' ∉ s.take i := by
      intro hm
      obtain ⟨_, _, hfirst⟩ := List.idxOf?_eq_some_iff.mp h
      obtain ⟨j, hj, hget⟩ := List.getElem_of_mem hm
      rw [List.length_take] at hj
      rw [List.getElem_take] at hget
      exact hfirst j (by omega) hget
    dsimp only
    split <;> exact htake

end TcpUv
