import TcpUv.Lib.Text
import TcpUv.Lib.Lines
import Mathlib.Algebra.Group.Nat.Defs
import Mathlib.Algebra.Group.Int.Defs

/-!
# What the sources use of the C++ standard library

`std::string` is a list of characters, one per byte. The conversions are `Lib/Text`'s,
under the names and with the exceptions the standard gives them; `find` and `substr`
are kept at the widths the sources use them at, because `doProcessReceivedBuffer` stores
`find`'s `size_t` in a 32-bit `int` and hands that back to `substr`.
-/

set_option autoImplicit false

namespace TcpUv

open Lib

/-- `std::string`, one `Char` per byte. -/
abbrev Str := List Char

/-- The standard exceptions the modelled functions can raise. -/
inductive StdException where
  | invalidArgument
  | outOfRange
  deriving DecidableEq, Repr

/-- `std::to_string(int)`. -/
def stdToString (n : Int) : Str := intText n

/-- `std::stoi`: `strtol`, then a range check against `int`. -/
def stoi (s : Str) : Except StdException Int32 :=
  match readInt s with
  | none => .error .invalidArgument
  | some n =>
      if -2 ^ 31 ≤ n ∧ n < 2 ^ 31 then .ok (Int32.ofInt n) else .error .outOfRange

/-- `std::string::npos`, the largest `size_t`. -/
def npos : Nat := 2 ^ 64 - 1

/-- `std::string::find(char)`, a `size_t`. -/
def find (s : Str) (ch : Char) : Nat := (s.idxOf? ch).getD npos

/-- An `int` passed where a `size_t` is expected. -/
def toSizeT (i : Int32) : Nat := (i.toInt % 2 ^ 64).toNat

/-- `std::string::substr(pos)`: a start past the end raises `out_of_range`. -/
def substrFrom (s : Str) (pos : Nat) : Except StdException Str :=
  if s.length < pos then .error .outOfRange else .ok (s.drop pos)

/-- `std::string::substr(pos, len)`. -/
def substr (s : Str) (pos len : Nat) : Except StdException Str :=
  if s.length < pos then .error .outOfRange else .ok ((s.drop pos).take len)

/-! ## `stoi` and `to_string` -/

@[simp] theorem stoi_stdToString (p : Int32) : stoi (stdToString p.toInt) = .ok p := by
  have h : -2 ^ 31 ≤ p.toInt ∧ p.toInt < 2 ^ 31 := ⟨p.le_toInt, p.toInt_lt⟩
  rw [stoi, stdToString, readInt_intText]
  simp only [if_pos h, Int32.ofInt_toInt]

theorem isWord_stdToString (n : Int) : IsWord (stdToString n) := isWord_intText n

theorem stdToString_no_colon (n : Int) : ':' ∉ stdToString n := by
  intro h
  rcases mem_intText h with h | h
  · exact absurd h (by simp)
  · exact absurd h (by simp)

theorem stdToString_injective {p q : Int32}
    (h : stdToString p.toInt = stdToString q.toInt) : p = q :=
  Int32.toInt_inj.mp (intText_injective h)

/-! ## An `int` where a `size_t` was or will be -/

/-- Storing a `size_t` in an `int` keeps the low 32 bits, the highest of them as the sign. -/
theorem toInt_ofNat (n : Nat) : (Int32.ofNat n).toInt =
    if n % 2 ^ 32 < 2 ^ 31 then ((n % 2 ^ 32 : Nat) : Int)
    else ((n % 2 ^ 32 : Nat) : Int) - 2 ^ 32 := by
  have hsize : Int32.size = 2 ^ 32 := rfl
  rw [Int32.toInt_ofNat', Int.bmod, hsize]
  split <;> split <;> omega

theorem zero_le_ofNat_iff (n : Nat) : (0 : Int32) ≤ Int32.ofNat n ↔ n % 2 ^ 32 < 2 ^ 31 := by
  rw [Int32.le_iff_toInt_le, Int32.toInt_zero, toInt_ofNat]
  split <;> omega

/-- Taken back as a `size_t`, what was not negative is itself and the rest is out of reach. -/
theorem toSizeT_ofNat (n : Nat) : toSizeT (Int32.ofNat n) =
    if n % 2 ^ 32 < 2 ^ 31 then n % 2 ^ 32 else n % 2 ^ 32 + (2 ^ 64 - 2 ^ 32) := by
  rw [toSizeT, toInt_ofNat]
  split <;> omega

theorem ofNat_succ (n : Nat) : Int32.ofNat n + 1 = Int32.ofNat (n + 1) := by
  rw [Int32.ofNat_add]
  rfl

/-! ## `find` -/

theorem find_of_not_mem {s : Str} {ch : Char} (h : ch ∉ s) : find s ch = npos := by
  rw [find, List.idxOf?_eq_none_iff.mpr h]
  rfl

theorem find_append {s rest : Str} {ch : Char} (h : ch ∉ s) :
    find (s ++ ch :: rest) ch = s.length := by
  induction s with
  | nil => simp [find, List.idxOf?_cons]
  | cons d s ih =>
    have hd : d ≠ ch := fun he => h (by simp [he])
    have hs : ch ∉ s := fun hm => h (by simp [hm])
    have hi := ih hs
    have hmem : ch ∈ s ++ ch :: rest := by simp
    obtain ⟨i, hidx⟩ := Option.isSome_iff_exists.mp (List.isSome_idxOf?.mpr hmem)
    simp only [find, hidx, Option.getD_some] at hi
    simp [find, List.idxOf?_cons, hd, hidx, hi]

end TcpUv
