import Mathlib.Data.List.Basic
import Mathlib.Tactic.Common

/-!
# Terminated segments of a stream

What a receiver of a terminated line protocol means, with no receiver in sight: a
stream of symbols is a list of *segments*, each closed by the terminator, and a
*residue* after the last terminator. `segments` computes both in one pass.

The fact everything is built on is `segments_append`: cutting a stream that arrives in two
pieces is cutting the first, then cutting its residue followed by the second. Iterated over
the arrivals it says that a receiver which keeps only the residue between them sees the
segments of their concatenation, however it was cut.
-/

set_option autoImplicit false

namespace TcpUv.Lib

variable {α : Type} [DecidableEq α]

/-- The terminated segments of a stream (terminators removed) and what follows the
    last terminator. -/
def segments (sep : α) : List α → List (List α) × List α
  | [] => ([], [])
  | a :: l =>
      let (done, rest) := segments sep l
      if a = sep then ([] :: done, rest)
      else
        match done with
        | [] => ([], a :: rest)
        | s :: done => ((a :: s) :: done, rest)

@[simp] theorem segments_nil (sep : α) : segments sep [] = ([], []) := rfl

@[simp] theorem segments_cons_sep (sep : α) (l : List α) :
    segments sep (sep :: l) = ([] :: (segments sep l).1, (segments sep l).2) := by
  simp [segments]

/-- A segment that meets its terminator is the first of the stream. -/
theorem segments_line {sep : α} {s : List α} (hs : sep ∉ s) (l : List α) :
    segments sep (s ++ sep :: l) = (s :: (segments sep l).1, (segments sep l).2) := by
  induction s with
  | nil => simp
  | cons a s ih =>
    have ha : a ≠ sep := fun h => hs (by simp [h])
    have hs' : sep ∉ s := fun h => hs (by simp [h])
    simp [segments, ih hs', ha]

/-- A stream with no terminator is all residue. -/
theorem segments_of_not_mem {sep : α} {l : List α} (hl : sep ∉ l) :
    segments sep l = ([], l) := by
  induction l with
  | nil => rfl
  | cons a l ih =>
    have ha : a ≠ sep := fun h => hl (by simp [h])
    have hl' : sep ∉ l := fun h => hl (by simp [h])
    simp [segments, ih hl', ha]

/-- The residue carries no terminator. -/
theorem residue_not_mem (sep : α) (l : List α) : sep ∉ (segments sep l).2 := by
  induction l with
  | nil => simp
  | cons a l ih =>
    rw [segments]
    by_cases ha : a = sep
    · simpa [ha] using ih
    · cases hd : (segments sep l).1 with
      | nil => simp [ha, hd, ih, Ne.symm ha]
      | cons s done => simpa [ha, hd] using ih

/-- **Every stream splits at its first terminator**, or has none. -/
theorem split_first (sep : α) (l : List α) :
    sep ∉ l ∨ ∃ s rest, l = s ++ sep :: rest ∧ sep ∉ s := by
  by_cases h : sep ∈ l
  · obtain ⟨s, rest, hl, hs⟩ := List.eq_append_cons_of_mem h
    exact Or.inr ⟨s, rest, hl, hs⟩
  · exact Or.inl h

/-- What stands before the first terminator and what stands after it, if there is one. -/
def firstSegment (sep : α) : List α → Option (List α × List α)
  | [] => none
  | a :: l =>
      if a = sep then some ([], l)
      else (firstSegment sep l).map fun cut => (a :: cut.1, cut.2)

theorem firstSegment_line {sep : α} {s : List α} (hs : sep ∉ s) (l : List α) :
    firstSegment sep (s ++ sep :: l) = some (s, l) := by
  induction s with
  | nil => simp [firstSegment]
  | cons a s ih =>
    have ha : a ≠ sep := fun h => hs (by simp [h])
    have hs' : sep ∉ s := fun h => hs (by simp [h])
    simp [firstSegment, ih hs', ha]

theorem firstSegment_of_not_mem {sep : α} {l : List α} (hl : sep ∉ l) :
    firstSegment sep l = none := by
  induction l with
  | nil => rfl
  | cons a l ih =>
    have ha : a ≠ sep := fun h => hl (by simp [h])
    have hl' : sep ∉ l := fun h => hl (by simp [h])
    simp [firstSegment, ih hl', ha]

/-- The two parts are the stream, and the first has no terminator. -/
theorem firstSegment_eq_some {sep : α} {l s rest : List α} :
    firstSegment sep l = some (s, rest) ↔ l = s ++ sep :: rest ∧ sep ∉ s := by
  constructor
  · intro h
    rcases split_first sep l with hl | ⟨t, after, rfl, ht⟩
    · rw [firstSegment_of_not_mem hl] at h
      cases h
    · rw [firstSegment_line ht] at h
      cases h
      exact ⟨rfl, ht⟩
  · rintro ⟨rfl, hs⟩
    exact firstSegment_line hs rest

/-- A segment and its terminator are part of the stream. -/
theorem segment_length_lt {sep : α} {l s : List α} (h : s ∈ (segments sep l).1) :
    s.length < l.length := by
  induction hn : l.length using Nat.strongRecOn generalizing l with
  | ind n ih =>
    subst hn
    rcases split_first sep l with hl | ⟨t, rest, rfl, ht⟩
    · rw [segments_of_not_mem hl] at h
      exact absurd h (by simp)
    · have hlt : rest.length < (t ++ sep :: rest).length := by
        simp only [List.length_append, List.length_cons]; omega
      rw [segments_line ht] at h
      rcases List.mem_cons.mp h with rfl | h
      · simp only [List.length_append, List.length_cons]; omega
      · exact Nat.lt_trans (ih rest.length hlt h rfl) hlt

/-- **Cutting in two arrivals**: the residue of the first is put before the second. -/
theorem segments_append (sep : α) (l m : List α) :
    segments sep (l ++ m) =
      ((segments sep l).1 ++ (segments sep ((segments sep l).2 ++ m)).1,
        (segments sep ((segments sep l).2 ++ m)).2) := by
  induction hn : l.length using Nat.strongRecOn generalizing l with
  | ind n ih =>
    subst hn
    rcases split_first sep l with hl | ⟨s, rest, rfl, hs⟩
    · simp [segments_of_not_mem hl]
    · have hlt : rest.length < (s ++ sep :: rest).length := by
        simp only [List.length_append, List.length_cons]; omega
      have hrest := ih rest.length hlt rest rfl
      have happ : (s ++ sep :: rest) ++ m = s ++ sep :: (rest ++ m) := by simp
      rw [happ, segments_line hs, segments_line hs, hrest]
      simp

/-- What has arrived of a stream so far holds the first of its segments. -/
theorem segments_mono (sep : α) {l m : List α} (h : l <+: m) :
    (segments sep l).1 <+: (segments sep m).1 := by
  obtain ⟨rest, rfl⟩ := h
  rw [segments_append]
  exact List.prefix_append _ _

/-- The segments of lines written one after the other, each with its terminator, are
    the lines, and nothing is left. -/
theorem segments_flatMap {sep : α} {lines : List (List α)} (h : ∀ s ∈ lines, sep ∉ s) :
    segments sep (lines.flatMap fun s => s ++ [sep]) = (lines, []) := by
  induction lines with
  | nil => rfl
  | cons s lines ih =>
    have hs : sep ∉ s := h s (by simp)
    have ih' := ih fun t ht => h t (by simp [ht])
    rw [List.flatMap_cons, List.append_assoc, List.singleton_append, segments_line hs, ih']

example : segments ';' "ab;;c".toList = (["ab".toList, []], "c".toList) := by decide

end TcpUv.Lib
