import AutoTest.Strtok

/-!
# Character arrays

An array of characters is the start of a memory that goes on after it, so an
index can leave it. Every access is noted with its index.

* `Holds`: the characters of a text, and zeros up to the end of the array.
* `Inside`: all accesses so far were below a bound.
* `InsideBut`: all but one were, which was at the bound.
-/

namespace Buffers

open CString Strtok

structure CharArray (size : Nat) where
  memory : List Cell
  room : size ≤ memory.length
  /-- the indices that were accessed -/
  touched : List Nat

namespace CharArray

variable {size : Nat}

def blank (size : Nat) : CharArray size := ⟨List.replicate size none, by simp, []⟩

/-- What lies after the memory reads as zeros. -/
def cell (a : CharArray size) (i : Nat) : Cell := a.memory.getD i none

/-- Consecutive characters are accessed. -/
def touch (p count : Nat) (a : CharArray size) : CharArray size :=
  { a with touched := a.touched ++ List.range' p count }

def write (p : Nat) (cs : List Cell) (a : CharArray size) : CharArray size where
  memory := a.memory.take p ++ (cs ++ a.memory.drop (p + cs.length))
  room := by
    have := a.room
    simp only [List.length_append, List.length_take, List.length_drop]
    omega
  touched := a.touched ++ List.range' p cs.length

/-- `a[i] = c` -/
def store (i : Nat) (c : Cell) (a : CharArray size) : CharArray size := a.write i [c]

/-- `memset(a, 0, sizeof(a))` -/
def clear (a : CharArray size) : CharArray size := a.write 0 (List.replicate size none)

/-- What `strcpy` and `sprintf` do with a text. -/
def put (t : Text) (a : CharArray size) : CharArray size := a.write 0 (cells t ++ [none])

/-- The string at the start. -/
def text (a : CharArray size) : Text := cstring a.memory

/-- The string at `p`, read with its terminator. -/
def string (p : Nat) (a : CharArray size) : Text × CharArray size :=
  let t := stringAt a.memory p
  (t, a.touch p (t.length + 1))

def strlen (a : CharArray size) : Nat × CharArray size :=
  (a.text.length, a.touch 0 (a.text.length + 1))

/-- `strstr(a, needle)` as an index, which reads no more than the whole string. -/
def find (needle : Text) (a : CharArray size) : Option Nat × CharArray size :=
  ((strstr needle a.text).map fun p => a.text.length - p.length, a.touch 0 (a.text.length + 1))

/-- The first `count` characters. -/
def load (count : Nat) (a : CharArray size) : List Cell × CharArray size :=
  (a.memory.take count, a.touch 0 count)

variable {a : CharArray size} {t : Text}

/-! ## Strings in memory -/

theorem cstring_cell (l : List Cell) : ∀ i ≤ (cstring l).length, l.getD i none = (cstring l)[i]? := by
  induction l with
  | nil => simp [cstring]
  | cons c l ih =>
    cases c with
    | none => simp [cstring]
    | some c =>
      intro i hi
      cases i with
      | zero => rfl
      | succ i =>
        have next := ih i (by simpa [cstring] using hi)
        simpa [cstring] using next

theorem cstring_eq {l : List Cell} (h : ∀ i ≤ t.length, l.getD i none = t[i]?) : cstring l = t := by
  induction t generalizing l with
  | nil =>
    have first := h 0 (Nat.le_refl 0)
    cases l with
    | nil => rfl
    | cons c l =>
      obtain rfl : c = none := first
      rfl
  | cons c t ih =>
    have first := h 0 (Nat.zero_le _)
    cases l with
    | nil => simp at first
    | cons d l =>
      obtain rfl : d = some c := first
      have tail : cstring l = t := ih fun i hi => h (i + 1) (by simpa using hi)
      rw [cstring, tail]

theorem stringAt_eq {l : List Cell} {p : Nat} (inside : p ≤ (cstring l).length) :
    stringAt l p = (cstring l).drop p := by
  apply cstring_eq
  intro i hi
  have same := cstring_cell l (p + i) (by simp only [List.length_drop] at hi; omega)
  rw [List.getElem?_drop, ← same]
  simp [List.getD_eq_getElem?_getD]

/-! ## What an array holds -/

theorem cell_text (a : CharArray size) {i : Nat} (inside : i ≤ a.text.length) :
    a.cell i = a.text[i]? :=
  cstring_cell a.memory i inside

theorem cell_write {p : Nat} (start : p ≤ size) (cs : List Cell) (i : Nat) : (a.write p cs).cell i =
    if p ≤ i ∧ i < p + cs.length then cs.getD (i - p) none else a.cell i := by
  have room := a.room
  have front : (a.memory.take p).length = p := by
    rw [List.length_take]
    omega
  simp only [cell, write, List.getD_eq_getElem?_getD]
  split
  · rename_i inside
    rw [List.getElem?_append_right (by omega), front, List.getElem?_append_left (by omega)]
  · rename_i outside
    by_cases before : i < p
    · rw [List.getElem?_append_left (by omega), List.getElem?_take_of_lt before]
    · rw [List.getElem?_append_right (by omega), front, List.getElem?_append_right (by omega),
        List.getElem?_drop]
      congr 2
      omega

theorem cell_store {p : Nat} (start : p ≤ size) (c : Cell) (i : Nat) :
    (a.store p c).cell i = if i = p then c else a.cell i := by
  rw [store, cell_write start]
  by_cases here : i = p
  · simp [here]
  · have elsewhere : ¬ (p ≤ i ∧ i < p + [c].length) := by
      simp only [List.length_singleton]
      omega
    rw [if_neg elsewhere, if_neg here]

theorem cell_clear {i : Nat} (inside : i < size) : a.clear.cell i = none := by
  rw [clear, cell_write (Nat.zero_le size), if_pos (by simpa using inside)]
  simp [List.getD_eq_getElem?_getD, inside]

theorem find_fst {needle : Text} (h : a.text = t) :
    (a.find needle).1 = (strstr needle t).map fun p => t.length - p.length := by
  subst h
  rfl

theorem text_eq (h : ∀ i ≤ t.length, a.cell i = t[i]?) : a.text = t := cstring_eq h

/-- The string at the start ends at the first zero. -/
theorem text_length_le {i : Nat} (zero : a.cell i = none) : a.text.length ≤ i := by
  by_contra after
  have inside : i < a.text.length := Nat.not_le.mp after
  have same := a.cell_text (Nat.le_of_lt inside)
  rw [List.getElem?_eq_getElem inside] at same
  cases zero.symm.trans same

theorem text_eq_nil_iff : a.text = [] ↔ a.cell 0 = none := by
  constructor
  · intro empty
    rw [a.cell_text (Nat.zero_le _), empty]
    rfl
  · intro zero
    exact List.eq_nil_of_length_eq_zero (Nat.le_zero.mp (text_length_le zero))

/-- A text and zeros after it. -/
structure Holds (a : CharArray size) (t : Text) : Prop where
  short : t.length < size
  content : ∀ i < size, a.cell i = t[i]?

theorem Holds.text (holds : a.Holds t) : a.text = t := by
  have short := holds.short
  exact text_eq fun i hi => holds.content i (by omega)

theorem Holds.touch (holds : a.Holds t) {p count : Nat} : (a.touch p count).Holds t :=
  ⟨holds.short, holds.content⟩

theorem clear_holds (some_room : 0 < size) : a.clear.Holds [] :=
  ⟨some_room, fun i hi => by rw [cell_clear hi]; rfl⟩

theorem Holds.put (empty : a.Holds []) (short : t.length < size) : (a.put t).Holds t := by
  refine ⟨short, ?_⟩
  intro i hi
  have old : a.cell i = none := empty.content i hi
  rw [CharArray.put, cell_write (Nat.zero_le size)]
  simp only [Nat.zero_le, true_and, Nat.zero_add, Nat.sub_zero, List.length_append, length_cells,
    List.length_singleton, old, List.getD_eq_getElem?_getD]
  rcases Nat.lt_trichotomy i t.length with inside | rfl | after
  · rw [if_pos (by omega), List.getElem?_append_left (by simpa using inside)]
    simp [Strtok.cells, inside]
  · rw [if_pos (by omega), List.getElem?_append_right (by simp)]
    simp
  · rw [if_neg (by omega), List.getElem?_eq_none (by omega)]

/-- A zero after the text changes nothing. -/
theorem Holds.store_zero (holds : a.Holds t) {p : Nat} (after : t.length ≤ p) (start : p ≤ size) :
    (a.store p none).Holds t := by
  refine ⟨holds.short, ?_⟩
  intro i hi
  rw [cell_store start]
  split
  · rename_i here
    rw [List.getElem?_eq_none (by omega)]
  · exact holds.content i hi

theorem Holds.store_next (holds : a.Holds t) {c : Char} (room : t.length + 1 < size) :
    (a.store t.length (some c)).Holds (t ++ [c]) := by
  refine ⟨by simpa using room, ?_⟩
  intro i hi
  rw [cell_store (by omega)]
  split
  · rename_i here
    simp [here]
  · rename_i elsewhere
    rw [holds.content i hi]
    rcases Nat.lt_or_ge i t.length with inside | after
    · rw [List.getElem?_append_left inside]
    · rw [List.getElem?_eq_none after, List.getElem?_eq_none (by simp; omega)]

/-- The last character is replaced by a zero. -/
theorem Holds.cut (holds : a.Holds t) : (a.store (t.length - 1) none).Holds t.dropLast := by
  have short := holds.short
  refine ⟨by simp only [List.length_dropLast]; omega, ?_⟩
  intro i hi
  rw [cell_store (by omega), List.dropLast_eq_take, List.getElem?_take]
  split
  · rename_i here
    rw [if_neg (by omega)]
  · rename_i elsewhere
    rw [holds.content i hi]
    split
    · rfl
    · rw [List.getElem?_eq_none (by omega)]

theorem Holds.strlen (holds : a.Holds t) : a.strlen.1 = t.length ∧ a.strlen.2.Holds t :=
  ⟨congrArg List.length holds.text, holds.touch⟩

theorem string_drop {p : Nat} (inside : p ≤ a.text.length) : (a.string p).1 = a.text.drop p :=
  stringAt_eq inside

theorem string_all (a : CharArray size) : (a.string 0).1 = a.text := string_drop (Nat.zero_le _)

theorem Holds.load_all (holds : a.Holds t) : (a.load t.length).1 = cells t := by
  have short := holds.short
  have room := a.room
  apply List.ext_getElem?
  intro i
  rw [load, List.getElem?_take]
  split
  · rename_i inside
    have same := holds.content i (by omega)
    have present : i < a.memory.length := by omega
    simp only [cell, List.getD_eq_getElem?_getD, List.getElem?_eq_getElem present, Option.getD_some,
      List.getElem?_eq_getElem inside] at same
    rw [List.getElem?_eq_getElem present, same]
    simp [Strtok.cells, inside]
  · rw [List.getElem?_eq_none (by simp; omega)]

/-! ## Where an array was accessed -/

def Inside (n : Nat) (a : CharArray size) : Prop := ∀ i ∈ a.touched, i < n

variable {n p : Nat}

theorem mem_touched_store (a : CharArray size) (p : Nat) (c : Cell) : p ∈ (a.store p c).touched :=
  List.mem_append_right _ (by simp)

theorem mem_touched_touch {i : Nat} (before : i ∈ a.touched) (p count : Nat) :
    i ∈ (a.touch p count).touched :=
  List.mem_append_left _ before

theorem Inside.touch (inside : a.Inside n) {count : Nat} (fits : p + count ≤ n) :
    (a.touch p count).Inside n := by
  intro i hi
  rcases List.mem_append.mp hi with old | new
  · exact inside i old
  · have := List.mem_range'_1.mp new
    omega

theorem Inside.write (inside : a.Inside n) {cs : List Cell} (fits : p + cs.length ≤ n) :
    (a.write p cs).Inside n := Inside.touch (a := a) inside fits

theorem Inside.store (inside : a.Inside n) {c : Cell} (fits : p < n) : (a.store p c).Inside n :=
  inside.write fits

theorem Inside.clear (inside : a.Inside n) (fits : size ≤ n) : a.clear.Inside n :=
  inside.write (by simpa using fits)

theorem Inside.put (inside : a.Inside n) (fits : t.length < n) : (a.put t).Inside n :=
  inside.write (by simp only [Nat.zero_add, List.length_append, length_cells,
    List.length_singleton]; omega)

theorem Inside.strlen (inside : a.Inside n) (fits : a.text.length < n) : a.strlen.2.Inside n :=
  inside.touch (by omega)

theorem Inside.find (inside : a.Inside n) (fits : a.text.length < n) (needle : Text) :
    (a.find needle).2.Inside n := inside.touch (by omega)

theorem Inside.string (inside : a.Inside n) (start : p ≤ a.text.length) (fits : a.text.length < n) :
    (a.string p).2.Inside n := by
  apply inside.touch
  have rest := congrArg List.length (stringAt_eq start)
  simp only [List.length_drop, text] at rest fits start ⊢
  omega

def InsideBut (n : Nat) (a : CharArray size) : Prop := ∀ i ∈ a.touched.erase n, i < n

theorem Inside.but (inside : a.Inside n) : a.InsideBut n :=
  fun i hi => inside i (List.mem_of_mem_erase hi)

theorem Inside.store_at (inside : a.Inside n) (c : Cell) : (a.store n c).InsideBut n := by
  have below : n ∉ a.touched := fun h => absurd (inside n h) (Nat.lt_irrefl n)
  intro i hi
  have rest : (a.store n c).touched.erase n = a.touched := by
    show (a.touched ++ [n]).erase n = a.touched
    rw [List.erase_append_right [n] below, List.erase_cons_head, List.append_nil]
  rw [rest] at hi
  exact inside i hi

theorem InsideBut.touch (inside : a.InsideBut n) {count : Nat} (fits : p + count ≤ n) :
    (a.touch p count).InsideBut n := by
  have within : ∀ i ∈ List.range' p count, i < n := by
    intro i hi
    have := List.mem_range'_1.mp hi
    omega
  intro i hi
  rw [CharArray.touch, List.erase_append] at hi
  split at hi
  · rcases List.mem_append.mp hi with old | new
    · exact inside i old
    · exact within i new
  · rcases List.mem_append.mp hi with old | new
    · exact inside i ((List.mem_erase_of_ne (by rintro rfl; contradiction)).mpr old)
    · exact within i (List.mem_of_mem_erase new)

theorem InsideBut.strlen (inside : a.InsideBut n) (fits : a.text.length < n) :
    a.strlen.2.InsideBut n :=
  inside.touch (by omega)

theorem InsideBut.load (inside : a.InsideBut n) {count : Nat} (fits : count ≤ n) :
    (a.load count).2.InsideBut n := inside.touch (by omega)

end CharArray

end Buffers
