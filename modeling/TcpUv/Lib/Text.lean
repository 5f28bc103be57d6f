import Mathlib.Data.List.TakeWhile
import Mathlib.Tactic.Common

/-!
# Character text — words and decimal numerals

The two conversions a line-oriented text protocol rests on, over plain lists of
characters: cutting a line into whitespace-separated words, and writing and reading
integers in decimal. Nothing here knows any protocol.

* `words` is the loop `while (ss >> buf)` — maximal runs of non-space characters.
* `intText` is `std::to_string` of an integer, `readInt` is `strtol` in base ten:
  leading whitespace, an optional sign, then as many digits as there are; whatever
  follows them is ignored, and no digit at all is a failure.

The facts the development spends are the two round trips — a line joined from words
splits back into them (`words_cons_space`, `words_of_isWord`), and the numeral of `n`
reads back as `n` (`readInt_intText`) — and that a numeral is itself a word.
-/

set_option autoImplicit false

namespace TcpUv.Lib

/-- `isspace` of the C locale: space, and the five control characters 9 to 13. -/
def isspace (ch : Char) : Bool :=
  ch.toNat = 32 || (9 ≤ ch.toNat && ch.toNat ≤ 13)

/-- A text that survives tokenisation unchanged: non-empty and free of whitespace. -/
def IsWord (w : List Char) : Prop := w ≠ [] ∧ ∀ ch ∈ w, isspace ch = false

instance (w : List Char) : Decidable (IsWord w) :=
  @instDecidableAnd _ _ _ (List.decidableBAll (fun ch => isspace ch = false) w)

/-! ## Words -/

/-- The word loop with the word collected so far: whitespace closes a word that has
    begun and is skipped otherwise. -/
def wordsFrom : List Char → List Char → List (List Char)
  | [], [] => []
  | w, [] => [w]
  | w, ch :: rest =>
      if isspace ch then
        if w = [] then wordsFrom [] rest else w :: wordsFrom [] rest
      else wordsFrom (w ++ [ch]) rest

/-- The whitespace-separated words of a text, in order. -/
def words (s : List Char) : List (List Char) := wordsFrom [] s

@[simp] theorem words_nil : words [] = [] := rfl

/-- Characters that are not whitespace are simply collected. -/
theorem wordsFrom_append {v : List Char} (hv : ∀ ch ∈ v, isspace ch = false) :
    ∀ (w rest : List Char), wordsFrom w (v ++ rest) = wordsFrom (w ++ v) rest := by
  induction v with
  | nil => intro w rest; simp
  | cons ch v ih =>
    intro w rest
    have hch : isspace ch = false := hv ch (by simp)
    rw [List.cons_append, wordsFrom.eq_def]
    simp only [hch, Bool.false_eq_true, if_false]
    rw [ih (fun d hd => hv d (by simp [hd]))]
    simp

/-- A word followed by a space is the first word of the text. -/
theorem words_cons_space {w rest : List Char} (hw : IsWord w) :
    words (w ++ ' ' :: rest) = w :: words rest := by
  unfold words
  rw [wordsFrom_append hw.2, wordsFrom.eq_def]
  simp [isspace, hw.1]

/-- A word is a text of one word. -/
theorem words_of_isWord {w : List Char} (hw : IsWord w) : words w = [w] := by
  have h := wordsFrom_append hw.2 [] []
  simp only [List.append_nil, List.nil_append] at h
  rw [words, h]
  cases w with
  | nil => exact absurd rfl hw.1
  | cons ch w => rfl

theorem mem_wordsFrom {u : List Char} : ∀ (s w : List Char),
    (∀ ch ∈ w, isspace ch = false) → u ∈ wordsFrom w s → IsWord u := by
  intro s
  induction s with
  | nil =>
    intro w hw hu
    cases w with
    | nil => exact absurd hu (by simp [wordsFrom])
    | cons ch w =>
      have he : u = ch :: w := by simpa [wordsFrom] using hu
      subst he
      exact ⟨by simp, hw⟩
  | cons ch s ih =>
    intro w hw hu
    rw [wordsFrom.eq_def] at hu
    by_cases hs : isspace ch = true
    · by_cases hn : w = []
      · simp only [hs, hn, if_true] at hu
        exact ih [] (by simp) hu
      · simp only [hs, hn, if_true, if_false, List.mem_cons] at hu
        rcases hu with rfl | hu
        · exact ⟨hn, hw⟩
        · exact ih [] (by simp) hu
    · simp only [hs] at hu
      refine ih (w ++ [ch]) (fun d hd => ?_) hu
      rcases List.mem_append.mp hd with hd | hd
      · exact hw d hd
      · rw [List.mem_singleton.mp hd]
        simpa using hs

/-- Every word the tokeniser answers is non-empty and free of whitespace. -/
theorem isWord_of_mem_words {s u : List Char} (hu : u ∈ words s) : IsWord u :=
  mem_wordsFrom s [] (by simp) hu

/-- Appending two texts of non-space characters, one of them non-empty, gives a word. -/
theorem IsWord.append {v w : List Char} (hv : IsWord v) (hw : ∀ ch ∈ w, isspace ch = false) :
    IsWord (v ++ w) := by
  refine ⟨by simp [hv.1], fun ch hch => ?_⟩
  rcases List.mem_append.mp hch with h | h
  · exact hv.2 ch h
  · exact hw ch h

/-! ## Decimal numerals -/

/-- `std::to_string` of an integer. -/
def intText (n : Int) : List Char :=
  if n < 0 then '-' :: Nat.toDigits 10 n.natAbs else Nat.toDigits 10 n.natAbs

/-- The value of a run of digits, if there is one. -/
def readNat (s : List Char) : Option Nat :=
  let digits := s.takeWhile Char.isDigit
  if digits = [] then none else some (Nat.ofDigitChars 10 digits 0)

/-- `strtol` in base ten: `none` is "no conversion could be performed". -/
def readInt (s : List Char) : Option Int :=
  match s.dropWhile isspace with
  | '-' :: t => (readNat t).map fun (k : Nat) => -(k : Int)
  | '+' :: t => (readNat t).map fun (k : Nat) => (k : Int)
  | t => (readNat t).map fun (k : Nat) => (k : Int)

theorem isDigit_of_mem_digits {n : Nat} {ch : Char} (h : ch ∈ Nat.toDigits 10 n) :
    ch.isDigit = true := Nat.isDigit_of_mem_toDigits (by simp) (by simp) h

theorem isDigit_iff {ch : Char} : ch.isDigit = true ↔ 48 ≤ ch.toNat ∧ ch.toNat ≤ 57 := by
  simp only [Char.isDigit, Bool.and_eq_true, decide_eq_true_eq]
  exact Iff.rfl

theorem isspace_of_isDigit {ch : Char} (h : ch.isDigit = true) : isspace ch = false := by
  rw [isDigit_iff] at h
  simp only [isspace, Bool.or_eq_false_iff, Bool.and_eq_false_iff, decide_eq_false_iff_not]
  omega

/-- A run of digits is read whole when it ends the text. -/
theorem readNat_digits (n : Nat) : readNat (Nat.toDigits 10 n) = some n := by
  have ht : (Nat.toDigits 10 n).takeWhile Char.isDigit = Nat.toDigits 10 n :=
    List.takeWhile_eq_self_iff.mpr fun ch hch => isDigit_of_mem_digits hch
  simp only [readNat, ht, Nat.toDigits_ne_nil, if_false, Nat.ofDigitChars_ten_toDigits]

theorem digits_eq_cons (n : Nat) : ∃ ch rest, Nat.toDigits 10 n = ch :: rest ∧
    ch.isDigit = true := by
  cases h : Nat.toDigits 10 n with
  | nil => exact absurd h Nat.toDigits_ne_nil
  | cons ch rest => exact ⟨ch, rest, rfl, isDigit_of_mem_digits (n := n) (by simp [h])⟩

/-- **A numeral reads back as the number it writes**, signs included. -/
theorem readInt_intText (n : Int) : readInt (intText n) = some n := by
  obtain ⟨ch, rest, hd, hdig⟩ := digits_eq_cons n.natAbs
  have hr := readNat_digits n.natAbs
  by_cases hn : n < 0
  · have hsp : isspace '-' = false := by decide
    rw [intText, if_pos hn, readInt, List.dropWhile_cons_of_neg (by simp [hsp])]
    simp only [hr, Option.map_some, Option.some.injEq]
    omega
  · have hnum := (isDigit_iff.mp hdig)
    have hminus : ch ≠ '-' := by rintro rfl; exact absurd hnum (by simp)
    have hplus : ch ≠ '+' := by rintro rfl; exact absurd hnum (by simp)
    rw [intText, if_neg hn, readInt, hd,
      List.dropWhile_cons_of_neg (by simp [isspace_of_isDigit hdig])]
    rw [hd] at hr
    split
    · rename_i heq; exact absurd (List.cons.inj heq).1 hminus
    · rename_i heq; exact absurd (List.cons.inj heq).1 hplus
    · simp only [hr, Option.map_some, Option.some.injEq]
      omega

/-- The characters of a numeral are digits and a sign. -/
theorem mem_intText {n : Int} {ch : Char} (h : ch ∈ intText n) :
    ch = '-' ∨ ch.isDigit = true := by
  unfold intText at h
  split at h
  · rcases List.mem_cons.mp h with rfl | h
    · exact Or.inl rfl
    · exact Or.inr (isDigit_of_mem_digits h)
  · exact Or.inr (isDigit_of_mem_digits h)

/-- A numeral is a word. -/
theorem isWord_intText (n : Int) : IsWord (intText n) := by
  refine ⟨?_, fun ch hch => ?_⟩
  · unfold intText
    split
    · simp
    · exact Nat.toDigits_ne_nil
  · rcases mem_intText hch with rfl | h
    · decide
    · exact isspace_of_isDigit h

theorem intText_injective {m n : Int} (h : intText m = intText n) : m = n := by
  have hm := readInt_intText m
  rw [h, readInt_intText n] at hm
  exact (Option.some.inj hm).symm

example : words "OPEER  10.0.0.1\t5001 ".toList = ["OPEER".toList, "10.0.0.1".toList, "5001".toList] := by
  decide

example : readInt " -12abc".toList = some (-12) := by decide

end TcpUv.Lib
