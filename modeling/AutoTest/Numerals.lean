import AutoTest.CString

/-!
# Numbers in texts

A number that `%d` writes is read by `atoi`, whatever follows its digits.

* `atoi_toText`: so the number comes back, where an `int` can hold it.
-/

namespace CString

theorem toText_nat (n : Nat) : toText n = Nat.toDigits 10 n := by
  show (Nat.repr n).toList = _
  exact Nat.toList_repr

theorem toText_isDigit {n : Nat} {c : Char} (h : c ∈ toText n) : c.isDigit := by
  rw [toText_nat] at h
  exact Nat.isDigit_of_mem_toDigits (by decide) (by decide) h

theorem toText_ne_nil (n : Nat) : toText n ≠ [] := by
  rw [toText_nat]
  exact Nat.toDigits_ne_nil

theorem not_mem_toText {n : Nat} {c : Char} (other : c.isDigit = false) : c ∉ toText n := by
  intro inside
  rw [toText_isDigit inside] at other
  cases other

theorem decimal_toText (n : Nat) : decimal (toText n) = n := by
  rw [toText_nat]
  exact Nat.ofDigitChars_ten_toDigits

/-- The digits end where something else begins. -/
theorem magnitude_toText {n : Nat} {rest : Text} (ended : ∀ c, rest.head? = some c →
    c.isDigit = false) :
    magnitude (toText n ++ rest) = n := by
  have stop : rest.takeWhile Char.isDigit = [] := by
    cases rest with
    | nil => rfl
    | cons c rest => rw [List.takeWhile_cons_of_neg (by simp [ended c rfl])]
  rw [magnitude, List.takeWhile_append_of_pos fun c hc => toText_isDigit hc, stop,
    List.append_nil, decimal_toText]

theorem isDigit_plain {c : Char} (digit : c.isDigit) : isSpace c = false ∧ c ≠ '-' ∧ c ≠ '+' := by
  have low : 48 ≤ c.toNat := by
    simp only [Char.isDigit, Bool.and_eq_true, decide_eq_true_eq] at digit
    exact digit.1
  have apart (d : Char) (h : d.toNat < 48) : c ≠ d := by
    rintro rfl
    omega
  have codes : c.toNat ≠ 11 ∧ c.toNat ≠ 12 := by omega
  refine ⟨?_, apart '-' (by decide), apart '+' (by decide)⟩
  simp [isSpace, apart ' ' (by decide), apart '\t' (by decide), apart '\n' (by decide),
    apart '\r' (by decide), codes]

theorem strtol_digit {c : Char} {t : Text} (digit : c.isDigit) :
    strtol (c :: t) = min (2 ^ 63 - 1) (magnitude (c :: t)) := by
  obtain ⟨visible, minus, plus⟩ := isDigit_plain digit
  unfold strtol
  rw [List.dropWhile_cons_of_neg (by simp [visible])]
  split
  · rename_i same
    exact absurd (List.cons.inj same).1 minus
  · rename_i same
    exact absurd (List.cons.inj same).1 plus
  · rfl

theorem atoi_toText {n : Nat} (small : (n : Int) ≤ intMax) {rest : Text}
    (ended : ∀ c, rest.head? = some c → c.isDigit = false) : atoi (toText n ++ rest) = n := by
  have value := magnitude_toText (n := n) ended
  have nonempty := toText_ne_nil n
  have digits (c : Char) (hc : c ∈ toText n) := toText_isDigit hc
  generalize toText n = written at value nonempty digits
  cases written with
  | nil => exact absurd rfl nonempty
  | cons c written =>
    have top : (n : Int) ≤ 2 ^ 63 - 1 := by
      simp only [intMax] at small
      omega
    rw [List.cons_append] at value ⊢
    rw [atoi, strtol_digit (digits c (by simp)), value, Int.min_eq_right top]
    exact int32_of_range (by omega) small

theorem atoi_space (t : Text) : atoi (' ' :: t) = atoi t := by
  unfold atoi strtol
  rw [List.dropWhile_cons_of_pos (by decide)]

end CString
