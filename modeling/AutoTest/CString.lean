import Mathlib.Algebra.Ring.Int.Defs
import Mathlib.Algebra.Ring.Nat
import Mathlib.Data.List.Basic
import Mathlib.Data.List.Infix
import Mathlib.Data.List.TakeWhile

/-!
# C strings

A C string is the list of its characters before the terminator, so no text
here contains one. The functions are those of `string.h`, `stdlib.h` and
`stdio.h` that the modelled program calls, in the C locale and with a 64-bit
`long`.
-/

namespace CString

abbrev Text := List Char

def isSpace (c : Char) : Bool :=
  c = ' ' || c = '\t' || c = '\n' || c = '\r' || c.toNat = 11 || c.toNat = 12

def digitValue (c : Char) : Nat := c.toNat - 48

def decimal (t : Text) : Nat :=
  t.foldl (fun n c => 10 * n + digitValue c) 0

/-- The value of the digits `t` starts with, as `strtol` reads them. -/
def magnitude (t : Text) : Int := decimal (t.takeWhile Char.isDigit)

/-- `strtol` in base 10 saturates at the ends of a 64-bit `long`. -/
def strtol (t : Text) : Int :=
  match t.dropWhile isSpace with
  | '-' :: rest => max (-2 ^ 63) (-magnitude rest)
  | '+' :: rest => min (2 ^ 63 - 1) (magnitude rest)
  | rest => min (2 ^ 63 - 1) (magnitude rest)

/-- Conversion to a 32-bit `int` keeps the low 32 bits. -/
def int32 (x : Int) : Int := x.bmod (2 ^ 32)

def intMax : Int := 2 ^ 31 - 1

/-- `atoi` is `(int) strtol`. -/
def atoi (t : Text) : Int := int32 (strtol t)

/-- The text from the first occurrence of `needle` on. -/
def strstr (needle : Text) : Text → Option Text
  | [] => if needle = [] then some [] else none
  | c :: t => if needle.isPrefixOf (c :: t) then some (c :: t) else strstr needle t

/-- `strncasecmp(t, word, strlen(word)) == 0`. -/
def beginsNoCase (word t : Text) : Bool :=
  (t.take word.length).map Char.toLower = word.map Char.toLower

/-- What a `printf` function writes for a format and no further arguments.
Any directive but `%%` asks for an argument that was never passed, and its
result is undefined. -/
def format : Text → Option Text
  | [] => some []
  | '%' :: '%' :: t => (format t).map ('%' :: ·)
  | '%' :: _ => none
  | c :: t => (format t).map (c :: ·)

/-- `snprintf(buf, size, fmt)` keeps at most `size - 1` characters. -/
def snprintf (size : Nat) (fmt : Text) : Option Text :=
  (format fmt).map (·.take (size - 1))

/-- The strings successive `fgets` calls deliver, where `room` more characters
fit and `line` holds the characters of the current call. -/
def fgetsFrom (size : Nat) : Nat → Text → Text → List Text
  | _, line, [] => if line = [] then [] else [line]
  | room, line, c :: t =>
    if c = '\n' ∨ room ≤ 1 then (line ++ [c]) :: fgetsFrom size size [] t
    else fgetsFrom size (room - 1) (line ++ [c]) t

/-- A file read through `fgets(buf, size + 1, file)`. -/
def fgets (size : Nat) (file : Text) : List Text := fgetsFrom size size [] file

def toText (n : Int) : Text := (toString n).toList

theorem int32_of_range {x : Int} (low : -2 ^ 31 ≤ x) (high : x ≤ intMax) : int32 x = x := by
  simp only [intMax] at high
  exact Int.bmod_eq_of_le (by omega) (by omega)

/-- Adding one and storing the result unless it is negative stops at `intMax`. -/
theorem int32_next {x : Int} (low : 0 ≤ x) (high : x ≤ intMax) :
    (if int32 (x + 1) < 0 then x else int32 (x + 1)) = min (x + 1) intMax := by
  rcases Int.lt_or_eq_of_le high with below | top
  · have hint : int32 (x + 1) = x + 1 := int32_of_range (by omega) (by omega)
    rw [hint, if_neg (by omega)]
    omega
  · have hint : int32 (x + 1) < 0 := by
      rw [top]
      decide
    rw [if_pos hint]
    omega

theorem format_cons {c : Char} (hc : c ≠ '%') (t : Text) :
    format (c :: t) = (format t).map (c :: ·) := by
  simp [format, hc]

/-- A `%` in a format is the first of a pair. -/
theorem format_percent {t copy : Text} (h : format ('%' :: t) = some copy) :
    ∃ rest more, t = '%' :: rest ∧ copy = '%' :: more ∧ format rest = some more := by
  cases t with
  | nil => simp [format] at h
  | cons d t =>
    by_cases hd : d = '%'
    · subst hd
      obtain ⟨more, hmore, rfl⟩ := Option.map_eq_some_iff.mp h
      exact ⟨t, more, rfl, rfl, hmore⟩
    · simp [format, hd] at h

theorem format_plain {t : Text} (h : '%' ∉ t) : format t = some t := by
  induction t with
  | nil => rfl
  | cons c t ih =>
    simp only [List.mem_cons, not_or] at h
    have hc : c ≠ '%' := fun e => h.1 e.symm
    simp [format, hc, ih h.2]

theorem format_plain_append {t : Text} (h : '%' ∉ t) (rest : Text) :
    format (t ++ rest) = (format rest).map (t ++ ·) := by
  induction t with
  | nil => simp
  | cons c t ih =>
    simp only [List.mem_cons, not_or] at h
    have hc : c ≠ '%' := fun e => h.1 e.symm
    simp [format_cons hc, ih h.2, Function.comp_def]

theorem format_length_le {t u : Text} (h : format t = some u) : u.length ≤ t.length := by
  induction t using format.induct generalizing u with
  | case1 =>
    obtain rfl : [] = u := by simpa [format] using h
    exact Nat.le_refl _
  | case2 t ih =>
    obtain ⟨v, hv, rfl⟩ := Option.map_eq_some_iff.mp h
    have := ih hv
    simp only [List.length_cons]
    omega
  | case3 t notPair =>
    obtain ⟨rest, -, rfl, -⟩ := format_percent h
    exact (notPair rest rfl).elim
  | case4 c t notPair hc ih =>
    rw [format_cons hc] at h
    obtain ⟨v, hv, rfl⟩ := Option.map_eq_some_iff.mp h
    have := ih hv
    simp only [List.length_cons]
    omega

theorem format_mem {t u : Text} (h : format t = some u) {c : Char} (hc : c ∈ u) : c ∈ t := by
  induction t using format.induct generalizing u with
  | case1 =>
    obtain rfl : [] = u := by simpa [format] using h
    simp at hc
  | case2 t ih =>
    obtain ⟨v, hv, rfl⟩ := Option.map_eq_some_iff.mp h
    rcases List.mem_cons.mp hc with rfl | later
    · simp
    · simp [ih hv later]
  | case3 t notPair =>
    obtain ⟨rest, -, rfl, -⟩ := format_percent h
    exact (notPair rest rfl).elim
  | case4 d t notPair hd ih =>
    rw [format_cons hd] at h
    obtain ⟨v, hv, rfl⟩ := Option.map_eq_some_iff.mp h
    rcases List.mem_cons.mp hc with rfl | later
    · simp
    · simp [ih hv later]

theorem format_filled {t u : Text} (h : format t = some u) (filled : t ≠ []) : u ≠ [] := by
  rintro rfl
  cases t using format.fun_cases with
  | case1 => exact filled rfl
  | case2 t =>
    obtain ⟨v, -, impossible⟩ := Option.map_eq_some_iff.mp h
    cases impossible
  | case3 t notPair =>
    obtain ⟨rest, -, rfl, -⟩ := format_percent h
    exact (notPair rest rfl).elim
  | case4 d t notPair hd =>
    rw [format_cons hd] at h
    obtain ⟨v, -, impossible⟩ := Option.map_eq_some_iff.mp h
    cases impossible

/-- A `%` that is read is one of a pair. -/
theorem format_shorter {t u : Text} (h : format t = some u) (percent : '%' ∈ t) :
    u.length < t.length := by
  induction t using format.induct generalizing u with
  | case1 => cases percent
  | case2 t ih =>
    obtain ⟨v, hv, rfl⟩ := Option.map_eq_some_iff.mp h
    have := format_length_le hv
    simp only [List.length_cons]
    omega
  | case3 t notPair =>
    obtain ⟨rest, -, rfl, -⟩ := format_percent h
    exact (notPair rest rfl).elim
  | case4 c t notPair hc ih =>
    rw [format_cons hc] at h
    obtain ⟨v, hv, rfl⟩ := Option.map_eq_some_iff.mp h
    rcases List.mem_cons.mp percent with here | later
    · exact absurd here.symm hc
    · have := ih hv later
      simp only [List.length_cons]
      omega

theorem snprintf_length {size : Nat} {fmt t : Text} (h : snprintf size fmt = some t) :
    t.length ≤ size - 1 := by
  obtain ⟨u, -, rfl⟩ := Option.map_eq_some_iff.mp h
  exact List.length_take_le _ _

theorem snprintf_length_le {size : Nat} {fmt t : Text} (h : snprintf size fmt = some t) :
    t.length ≤ fmt.length := by
  obtain ⟨u, hu, rfl⟩ := Option.map_eq_some_iff.mp h
  have := format_length_le hu
  simp only [List.length_take]
  omega

/-- A directive does not reach over a character other than `%`. -/
theorem format_append_stop (t : Text) {c : Char} (hc : c ≠ '%') (rest : Text) :
    format (t ++ c :: rest) =
      (format t).bind fun front => (format (c :: rest)).map (front ++ ·) := by
  induction t using format.induct with
  | case1 => simp [format]
  | case2 t ih =>
    simp only [List.cons_append, format, ih]
    cases format t <;> cases format (c :: rest) <;> simp
  | case3 t notPair =>
    cases t with
    | nil => simp [format, hc]
    | cons d t =>
      have hd : d ≠ '%' := by
        rintro rfl
        exact notPair t rfl
      simp [format, hd]
  | case4 d t notPair hd ih =>
    rw [List.cons_append, format_cons hd, format_cons hd, ih]
    cases format t <;> cases format (c :: rest) <;> simp

theorem snprintf_plain {size : Nat} {t : Text} (h : '%' ∉ t) :
    snprintf size t = some (t.take (size - 1)) := by
  simp [snprintf, format_plain h]

theorem strstr_isSome (needle t : Text) : (strstr needle t).isSome ↔ needle <:+: t := by
  induction t with
  | nil =>
    simp only [strstr, List.infix_nil]
    split <;> simp_all
  | cons c t ih =>
    simp only [strstr, List.infix_cons_iff]
    split
    · rename_i found
      simp [List.isPrefixOf_iff_prefix.mp found]
    · rename_i absent
      rw [ih]
      exact ⟨Or.inr, fun h => h.resolve_left (fun p => absent (List.isPrefixOf_iff_prefix.mpr p))⟩

theorem takeWhile_before {c : Char} {t : Text} (h : c ∉ t) (rest : Text) :
    (t ++ c :: rest).takeWhile (· ≠ c) = t := by
  have plain : ∀ d ∈ t, decide (d ≠ c) = true := by
    intro d hd
    exact decide_eq_true (fun e => h (e ▸ hd))
  rw [List.takeWhile_append_of_pos plain]
  simp

theorem split_before {c : Char} {t : Text} (h : c ∈ t) :
    ∃ rest, t = t.takeWhile (· ≠ c) ++ c :: rest := by
  induction t with
  | nil => simp at h
  | cons d t ih =>
    by_cases hd : d = c
    · exact ⟨t, by simp [hd]⟩
    · have later : c ∈ t := (List.mem_cons.mp h).resolve_left (fun e => hd e.symm)
      obtain ⟨rest, hrest⟩ := ih later
      exact ⟨rest, by simpa [hd] using hrest⟩

/-- What comes after the first `c` does not show before it. -/
theorem takeWhile_append_of_mem {c : Char} {t : Text} (h : c ∈ t) (more : Text) :
    (t ++ more).takeWhile (· ≠ c) = t.takeWhile (· ≠ c) := by
  induction t with
  | nil => simp at h
  | cons d t ih =>
    by_cases hd : d = c
    · simp [hd]
    · have later : c ∈ t := (List.mem_cons.mp h).resolve_left (fun e => hd e.symm)
      simpa [hd] using ih later

theorem strstr_suffix {needle t p : Text} (h : strstr needle t = some p) : p <:+ t := by
  induction t with
  | nil =>
    simp only [strstr] at h
    split at h
    · obtain rfl := Option.some.inj h
      exact List.suffix_refl _
    · cases h
  | cons c t ih =>
    simp only [strstr] at h
    split at h
    · obtain rfl := Option.some.inj h
      exact List.suffix_refl _
    · exact (ih h).trans (List.suffix_cons c t)

theorem strstr_prefix {needle t p : Text} (h : strstr needle t = some p) : needle <+: p := by
  induction t with
  | nil =>
    simp only [strstr] at h
    split at h
    · rename_i empty
      simp [empty]
    · cases h
  | cons c t ih =>
    simp only [strstr] at h
    split at h
    · rename_i found
      obtain rfl : c :: t = p := by simpa using h
      exact List.isPrefixOf_iff_prefix.mp found
    · exact ih h

/-! ## Lines longer than the buffer -/

section Pieces

variable {size : Nat}

/-- What fits the buffer is kept until more is read. -/
theorem fgetsFrom_skip {room : Nat} {front : Text} (one : '\n' ∉ front) (fits : front.length < room)
    (line t : Text) :
    fgetsFrom size room line (front ++ t) = fgetsFrom size (room - front.length)
      (line ++ front) t := by
  induction front generalizing room line with
  | nil => simp
  | cons c front ih =>
    simp only [List.mem_cons, not_or, List.length_cons] at one fits
    have more : ¬ (c = '\n' ∨ room ≤ 1) := by
      rintro (rfl | small)
      · exact one.1 rfl
      · omega
    have room' : room - 1 - front.length = room - (front.length + 1) := by omega
    rw [List.cons_append, fgetsFrom, if_neg more, ih one.2 (by omega), List.length_cons, room',
      List.append_assoc, List.singleton_append]

theorem fgets_newline {line : Text} (one : '\n' ∉ line) (short : line.length < size) (rest : Text) :
    fgets size (line ++ '\n' :: rest) = (line ++ ['\n']) :: fgets size rest := by
  rw [fgets, fgetsFrom_skip one short, List.nil_append, fgetsFrom, if_pos (.inl rfl), fgets]

theorem fgets_last {line : Text} (one : '\n' ∉ line) (short : line.length < size) :
    fgets size line = if line = [] then [] else [line] := by
  have skip : fgetsFrom size size [] (line ++ []) = _ := fgetsFrom_skip one short [] []
  rw [List.append_nil, List.nil_append] at skip
  rw [fgets, skip, fgetsFrom]

theorem fgets_full {piece : Text} (one : '\n' ∉ piece) (full : piece.length = size)
    (some_room : 0 < size) (rest : Text) : fgets size (piece ++ rest) = piece :: fgets size rest := by
  rcases List.eq_nil_or_concat' piece with rfl | ⟨front, c, rfl⟩
  · subst full
    simp at some_room
  · simp only [List.mem_append, List.mem_singleton, not_or] at one
    simp only [List.length_append, List.length_singleton] at full
    have last : size - front.length ≤ 1 := by omega
    rw [fgets, List.append_assoc, fgetsFrom_skip one.1 (by omega), List.singleton_append, fgetsFrom,
      if_pos (.inr last), List.nil_append, fgets]

/-- A line is short, or starts with a full piece. -/
theorem short_or_full (size : Nat) (line : Text) : line.length < size ∨
    ∃ piece rest, line = piece ++ rest ∧ piece.length = size := by
  rcases Nat.lt_or_ge line.length size with short | long
  · exact .inl short
  · exact .inr ⟨line.take size, line.drop size,
      (List.take_append_drop size line).symm, by simp [long]⟩

theorem fgets_length {line : Text} (one : '\n' ∉ line) (some_room : 0 < size) :
    ∀ piece ∈ fgets size line, piece.length ≤ size := by
  induction hn : line.length using Nat.strong_induction_on generalizing line with
  | _ n ih =>
    rcases short_or_full size line with short | ⟨piece, rest, rfl, full⟩
    · rw [fgets_last one short]
      intro piece hpiece
      split at hpiece
      · cases hpiece
      · obtain rfl := List.mem_singleton.mp hpiece
        omega
    · simp only [List.mem_append, not_or] at one
      simp only [List.length_append] at hn
      rw [fgets_full one.1 full some_room]
      intro p hp
      rcases List.mem_cons.mp hp with rfl | later
      · omega
      · exact ih rest.length (by omega) one.2 rfl p later

theorem fgets_flatten (size : Nat) (file : Text) : (fgets size file).flatten = file := by
  have all (room : Nat) (line : Text) : (fgetsFrom size room line file).flatten = line ++ file := by
    induction file generalizing room line with
    | nil =>
      rw [fgetsFrom]
      split <;> simp_all
    | cons c t ih =>
      rw [fgetsFrom]
      split
      · simp [ih]
      · simp [ih]
  exact all size []

end Pieces

/-- A text of digits only, as `%d` writes them. -/
def digits (t : Text) : Bool := t ≠ [] && t.all Char.isDigit

theorem digitValue_le {c : Char} (h : c.isDigit) : digitValue c ≤ 9 := by
  simp only [Char.isDigit, Bool.and_eq_true, decide_eq_true_eq] at h
  have high : c.toNat ≤ 57 := h.2
  simp only [digitValue]
  omega

theorem foldl_decimal_lt (t : Text) (h : t.all Char.isDigit) (n : Nat) :
    t.foldl (fun n c => 10 * n + digitValue c) n < (n + 1) * 10 ^ t.length := by
  induction t generalizing n with
  | nil => simp
  | cons c t ih =>
    simp only [List.all_cons, Bool.and_eq_true] at h
    have head := digitValue_le h.1
    have tail := ih h.2 (10 * n + digitValue c)
    calc t.foldl (fun n c => 10 * n + digitValue c) (10 * n + digitValue c)
        < (10 * n + digitValue c + 1) * 10 ^ t.length := tail
      _ ≤ (10 * (n + 1)) * 10 ^ t.length := Nat.mul_le_mul_right _ (by omega)
      _ = (n + 1) * 10 ^ (c :: t).length := by
        rw [List.length_cons, Nat.pow_succ]
        ac_rfl

theorem decimal_lt {t : Text} (h : t.all Char.isDigit) : decimal t < 10 ^ t.length := by
  simpa [decimal] using foldl_decimal_lt t h 0

theorem not_digit_of_space {c : Char} (h : isSpace c) : ¬ c.isDigit := by
  intro hd
  simp only [Char.isDigit, Bool.and_eq_true, decide_eq_true_eq] at hd
  have low : 48 ≤ c.toNat := hd.1
  simp only [isSpace, Bool.or_eq_true, decide_eq_true_eq] at h
  rcases h with ((((rfl | rfl) | rfl) | rfl) | h) | h
  all_goals first | omega | exact absurd low (by decide)

theorem atoi_digits {t : Text} (h : digits t) (small : (decimal t : Int) ≤ intMax) :
    atoi t = decimal t := by
  simp only [digits, Bool.and_eq_true, decide_eq_true_eq] at h
  obtain ⟨nonempty, all⟩ := h
  cases t with
  | nil => exact absurd rfl nonempty
  | cons c t =>
    have hc : c.isDigit := by simpa using (List.all_eq_true.mp all) c (by simp)
    have noSpace : ¬ isSpace c := fun hs => not_digit_of_space hs hc
    have noMinus : c ≠ '-' := by
      rintro rfl
      simp at hc
    have noPlus : c ≠ '+' := by
      rintro rfl
      simp at hc
    have hmag : magnitude (c :: t) = decimal (c :: t) := by
      rw [magnitude, List.takeWhile_eq_self_iff.mpr (List.all_eq_true.mp all)]
    have hlong : strtol (c :: t) = decimal (c :: t) := by
      simp only [strtol, List.dropWhile_cons, noSpace, Bool.false_eq_true, ↓reduceIte]
      split
      · rename_i heq
        exact absurd (by simpa using congrArg List.head? heq) noMinus
      · rename_i heq
        exact absurd (by simpa using congrArg List.head? heq) noPlus
      · rw [hmag]
        simp only [intMax] at small
        omega
    rw [atoi, hlong]
    exact int32_of_range (by omega) small

end CString
